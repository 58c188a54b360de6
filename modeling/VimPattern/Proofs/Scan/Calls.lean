/-
Module: VimPattern.Proofs.Scan.Calls
Purpose: What the calls of a reader come to, one after the other.
Main exports:
  Item.Leading, Call.Settled, Reader.Answers.settled, Reader.Behind.settled_of_session,
  Reader.Behind.exists_stop, Reader.settled_session, Reader.Yields, Reader.Behind.yields
-/
import VimPattern.Options
import VimPattern.Proofs.Scan.Reader

namespace VimPattern

/-!
The calls of a reader take up the scan of the pattern where the call before has left it.  What
they have read together is settled by the last of them: the reader is behind all the items, which
tile the pattern up to there.  A call for a token has read an item, and items are not empty.  So
there are no more such calls than the pattern has bytes.
-/

/-- These are the first items of the pattern, and they tile the part of it that they take. -/
structure Item.Leading (level : Magicness) (pattern : String) (read : List Item) : Prop where
  leading : read <+: (Scan.ofPattern level pattern).items
  nonempty : ∀ item ∈ read, item.raw ≠ ""
  /-- An item stands where the items before it end, which is between two characters, and a token
  stands where its item does. -/
  located : ∀ before item after, read = before ++ item :: after →
    item.position = (Item.textOf before).utf8ByteSize ∧
      (⟨item.position⟩ : String.Pos.Raw).IsValid pattern ∧
        ∀ token, item.token? = some token →
          token.raw = item.raw ∧ token.position = item.position
  few : read.length ≤ pattern.utf8ByteSize

/-- What is known once a call has been answered, where all the items that have been read by then
are these. -/
structure Call.Settled (level : Magicness) (pattern : String) (read : List Item)
    (call : Call) : Prop extends Item.Leading level pattern read where
  /-- The reader stands between two characters. -/
  boundary : (⟨call.after.position⟩ : String.Pos.Raw).IsValid pattern
  /-- A token is the one of the last item, and the reader is right behind that. -/
  token : ∀ token, call.answer = .token token →
    (∃ skipped item, call.items = skipped ++ [item] ∧
      (∀ other ∈ skipped, other.token? = none) ∧ item.token? = some token) ∧
        call.after.Past pattern (Item.textOf read)
  /-- At the end the whole pattern has been read, and each call after this one has the same
  answer and leaves the reader as it is. -/
  ended : ∀ position magicness, call.answer = .ended position magicness →
    Item.textOf read = pattern ∧ call.after.Past pattern pattern ∧
      position = pattern.utf8ByteSize ∧ magicness = call.after.context.magicness ∧
        (Scan.ofPattern level pattern).result =
          .ok
            { position := call.after.position
              context := call.after.context } ∧
          ∀ more, call.after.session more =
            List.replicate more
              { items := []
                answer := call.answer
                after := call.after }
  /-- An error is the one of the whole pattern.  Behind the items at most the text of the item
  that cannot be used has been read. -/
  error : ∀ error, call.answer = .error error →
    read = (Scan.ofPattern level pattern).items ∧
      (Scan.ofPattern level pattern).result = .error error ∧
        call.after.Past pattern
          (Item.textOf read ++ (Scan.ofPattern level pattern).ending.unusable)
  answered : call.answer ≠ .torn

/-- A token has the text of its item, and stands where that does. -/
theorem Item.stands_of_token?_eq_some {item : Item} {token : Token}
    (itself : item.token? = some token) :
    token.raw = item.raw ∧ token.position = item.position := by
  unfold Item.token? at itself
  split at itself
  · cases itself
  · cases itself
    exact ⟨rfl, rfl⟩

namespace Reader

variable {level : Magicness} {pattern : String} {items : List Item} {reader : Reader}

/-- An offset behind a text that the pattern starts with cuts it between two characters. -/
theorem Past.isValid {text : String} (past : reader.Past pattern text) :
    (⟨reader.position⟩ : String.Pos.Raw).IsValid pattern := by
  obtain ⟨rest, whole⟩ := past.covered
  refine String.Pos.Raw.isValid_iff_exists_append.2 ⟨text, rest, whole, ?_⟩
  rw [past.place]
  rfl

/-- The items that a reader is behind are the first ones of its pattern. -/
theorem Behind.leading (behind : reader.Behind level pattern items) :
    Item.Leading level pattern items := by
  obtain ⟨rest, reaches⟩ := behind.reaches
  have tiles := reaches.tiles
  refine ⟨?_, ?_, ?_, Nat.le_trans tiles.length_le tiles.position_le⟩
  · rw [reaches.ofPattern_eq]
    exact List.prefix_append _ _
  · intro item among empty
    have nonempty := tiles.nonempty item among
    rw [empty] at nonempty
    cases nonempty
  · intro before item after split
    subst split
    exact ⟨tiles.located before item after rfl, tiles.before.isValid,
      fun token itself => Item.stands_of_token?_eq_some itself⟩

/-- Where a call is over without having read anything, every other one is. -/
theorem session_eq_replicate {position : Nat} {magicness : Magicness}
    (rests : reader.round = .stop (.ended position magicness) reader) (more : Nat) :
    reader.session more =
      List.replicate more
        { items := []
          answer := .ended position magicness
          after := reader } := by
  have next : reader.next = ⟨[], .ended position magicness, reader⟩ := by
    rw [Reader.next, rests]
  induction more with
  | zero => rfl
  | succ more inductionHypothesis =>
      rw [session, next, inductionHypothesis]
      rfl

/-- A call that is answered is settled. -/
theorem Answers.settled {call : Call} (answers : Answers level pattern items call) :
    call.Settled level pattern (items ++ call.items) := by
  cases answers with
  | @token skipped item token after silent itself behind =>
      have past := behind.past
      refine ⟨behind.leading, past.isValid, ?_, nofun, nofun, nofun⟩
      intro same answer
      cases answer
      exact ⟨⟨skipped, item, rfl, silent, itself⟩, past⟩
  | @stop skipped answer reader after silent behind rests =>
      have past := behind.past
      cases behind.stops rests with
      | ended whole read result =>
          refine ⟨behind.leading, past.isValid, nofun, ?_, nofun, nofun⟩
          intro position magicness answer
          cases answer
          rw [whole] at past
          exact ⟨whole, past, past.place, rfl, result, session_eq_replicate rests⟩
      | error read result past =>
          refine ⟨behind.leading, past.isValid, nofun, nofun, ?_, nofun⟩
          intro error answer
          cases answer
          exact ⟨read.symm, result, past⟩

/-- Behind a call after which the reader can be asked again it is behind all that has been
read. -/
theorem Answers.behind {call : Call} (answers : Answers level pattern items call)
    (goesOn : call.answer.goesOn = true) :
    call.after.Behind level pattern (items ++ call.items) := by
  cases answers with
  | token silent itself behind => exact behind
  | stop silent behind rests =>
      cases behind.stops rests with
      | ended => exact behind
      | error => cases goesOn

/-- Each call of a session that starts behind items is settled. -/
theorem Behind.settled_of_session {calls : Nat} {before later : List Call} {call : Call}
    (behind : reader.Behind level pattern items)
    (split : reader.session calls = before ++ call :: later) :
    call.Settled level pattern (items ++ (before ++ [call]).flatMap Call.items) := by
  induction calls generalizing reader items before with
  | zero => simp [session] at split
  | succ calls inductionHypothesis =>
      have answers := behind.answers
      rw [session] at split
      split at split
      · next goesOn =>
          cases before with
          | nil =>
              obtain ⟨rfl, -⟩ := List.cons.inj split
              simpa using answers.settled
          | cons first before =>
              obtain ⟨rfl, others⟩ := List.cons.inj split
              have later := inductionHypothesis (answers.behind goesOn) others
              rwa [List.append_assoc, ← List.flatMap_cons] at later
      · cases before with
        | nil =>
            obtain ⟨rfl, -⟩ := List.cons.inj split
            simpa using answers.settled
        | cons first before => simp at split

/-- More calls than the pattern has bytes left cannot all be answered with a token. -/
theorem Behind.exists_stop {calls : Nat} (behind : reader.Behind level pattern items)
    (many : pattern.utf8ByteSize < items.length + calls) :
    ∃ call ∈ reader.session calls, ∀ token, call.answer ≠ .token token := by
  induction calls generalizing reader items with
  | zero =>
      have few := behind.leading.few
      omega
  | succ calls inductionHypothesis =>
      have answers := behind.answers
      rw [session]
      by_cases answered : ∃ token, reader.next.answer = .token token
      · obtain ⟨token, answer⟩ := answered
        obtain ⟨⟨skipped, item, read, -, -⟩, -⟩ := answers.settled.token token answer
        have goesOn : reader.next.answer.goesOn = true := by rw [answer]; rfl
        have fewer : pattern.utf8ByteSize < (items ++ reader.next.items).length + calls := by
          rw [read, List.length_append, List.length_append, List.length_singleton]
          omega
        obtain ⟨call, among, stops⟩ := inductionHypothesis (answers.behind goesOn) fewer
        rw [if_pos goesOn]
        exact ⟨call, List.mem_cons_of_mem _ among, stops⟩
      · refine ⟨reader.next, ?_, fun token answer => answered ⟨token, answer⟩⟩
        split <;> exact List.mem_cons_self

/-- For every pattern and all options, each call of a session is settled, however many of them
are made.  A session with more calls than the pattern has bytes comes to the end or to an
error. -/
theorem settled_session (options : Options) (pattern : String) (calls : Nat) :
    (∀ before call later,
      (start options.magicness pattern).session calls = before ++ call :: later →
        call.Settled options.magicness pattern ((before ++ [call]).flatMap Call.items)) ∧
      (pattern.utf8ByteSize < calls →
        ∃ call ∈ (start options.magicness pattern).session calls,
          ∀ token, call.answer ≠ .token token) := by
  have behind := behind_start options.magicness pattern
  constructor
  · intro before call later split
    exact behind.settled_of_session split
  · intro many
    refine behind.exists_stop ?_
    rwa [List.length_nil, Nat.zero_add]

theorem settled_session_accented :
    "é".utf8ByteSize < 3 ∧
      ∃ call ∈ (start .magic "é").session 3, ∀ token, call.answer ≠ .token token :=
  ⟨by decide, (settled_session {} "é" 3).2 (by decide)⟩

/-! ### Tokens alone -/

/-- From here on a reader has these tokens to answer with, one for each call.  The call behind the
last of them reports this outcome. -/
inductive Yields (outcome : Except ScanError Terminus) : List Token → Reader → Prop where
  | token {token : Token} {others : List Token} {reader : Reader}
      (answer : reader.next.answer = .token token)
      (later : Yields outcome others reader.next.after) : Yields outcome (token :: others) reader
  | ended {position : Nat} {magicness : Magicness} {reader : Reader}
      (answer : reader.next.answer = .ended position magicness)
      (finished : outcome =
        .ok
          { position := reader.next.after.position
            context := reader.next.after.context }) :
      Yields outcome [] reader
  | error {error : ScanError} {reader : Reader} (answer : reader.next.answer = .error error)
      (failed : outcome = .error error) : Yields outcome [] reader

/-- The token that a call is answered with is the next one of the pattern. -/
theorem Answers.unread_token {call : Call} {token : Token} {unread : List Token}
    (answers : Answers level pattern items call) (answer : call.answer = .token token)
    (tokens : (Scan.ofPattern level pattern).tokens =
      items.filterMap Item.token? ++ unread) :
    ∃ others, unread = token :: others ∧
      (Scan.ofPattern level pattern).tokens =
        (items ++ call.items).filterMap Item.token? ++ others := by
  have settled := answers.settled
  obtain ⟨⟨skipped, item, read, silent, itself⟩, -⟩ := settled.token token answer
  obtain ⟨later, whole⟩ := settled.leading
  have single : call.items.filterMap Item.token? = [token] := by
    rw [read, List.filterMap_append, List.filterMap_eq_nil_iff.2 silent, List.nil_append,
      List.filterMap_cons_some itself, List.filterMap_nil]
  refine ⟨later.filterMap Item.token?, ?_, ?_⟩
  · rw [Scan.tokens, ← whole, List.filterMap_append, List.filterMap_append, single,
      List.append_assoc] at tokens
    exact (List.append_cancel_left tokens).symm
  · rw [Scan.tokens, ← whole, List.filterMap_append]

/-- Where a call is over there is no token left. -/
theorem Answers.unread_stop {call : Call} {unread : List Token}
    (answers : Answers level pattern items call) (stop : ∀ token, call.answer ≠ .token token)
    (tokens : (Scan.ofPattern level pattern).tokens =
      items.filterMap Item.token? ++ unread) :
    unread = [] := by
  cases answers with
  | token => exact absurd rfl (stop _)
  | stop silent behind rests =>
      have read := (behind.stops rests).read
      rw [Scan.tokens, read, List.filterMap_append, List.filterMap_eq_nil_iff.2 silent] at tokens
      exact (List.append_cancel_left tokens).symm

/-- A reader yields the tokens of the pattern that it has not read yet. -/
theorem Behind.yields {unread : List Token} (behind : reader.Behind level pattern items)
    (tokens : (Scan.ofPattern level pattern).tokens =
      items.filterMap Item.token? ++ unread) :
    Yields (Scan.ofPattern level pattern).result unread reader := by
  induction unread generalizing reader items with
  | nil =>
      have answers := behind.answers
      have settled := answers.settled
      cases answer : reader.next.answer with
      | token token =>
          obtain ⟨_, impossible, _⟩ := answers.unread_token answer tokens
          cases impossible
      | ended position magicness =>
          obtain ⟨-, -, -, -, finished, -⟩ := settled.ended position magicness answer
          exact .ended answer finished
      | error error => exact .error answer (settled.error error answer).2.1
      | torn => exact absurd answer settled.answered
  | cons token others inductionHypothesis =>
      have answers := behind.answers
      by_cases answered : ∃ token, reader.next.answer = .token token
      · obtain ⟨token, answer⟩ := answered
        obtain ⟨_, same, tokens⟩ := answers.unread_token answer tokens
        cases same
        have goesOn : reader.next.answer.goesOn = true := by rw [answer]; rfl
        exact .token answer (inductionHypothesis (answers.behind goesOn) tokens)
      · have rests := answers.unread_stop (fun token answer => answered ⟨token, answer⟩) tokens
        cases rests

end Reader

end VimPattern
