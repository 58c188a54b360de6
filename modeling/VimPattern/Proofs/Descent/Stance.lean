/-
Module: VimPattern.Proofs.Descent.Stance
Purpose: Where a descent stands, by the growth of what it has taken.
Main exports:
  Ledger.Sound, Parser.Stands, Parser.Holds, Parser.Faces, Descent.Fails,
  Parser.Holds.take, Parser.Holds.take_refused, Parser.Holds.fails_early,
  Parser.Holds.fails_unfinished
-/
import VimPattern.Proofs.Descent.Meets
import VimPattern.Proofs.Grammar.Dollars
import VimPattern.Proofs.Grammar.Refusal

namespace VimPattern

/-!
The tokens that a descent has taken could also have been taken by a growth, one after the other.
So where the descent stands is told by that growth and by the tokens that are left.  Taking a
token that the growth takes leads on to the next such place.  A token that the growth refuses
makes the descent fail, with the cause that growing over the whole pattern comes to and with the
same number of tokens read.
-/

/-- The first of these tokens has been read, and a reader is going to yield the others.  If there
are none the reader is where the pattern ends. -/
def Reader.Leads (outcome : Except ScanError Terminus) : List Token → Reader → Prop
  | [], reader =>
      outcome =
        .ok
          { position := reader.position
            context := reader.context }
  | _ :: others, reader => reader.Yields outcome others

/-- The ledger of a descent that has taken these tokens.  There was one advance in front of them
and then one for each of them, and what is counted took some. -/
structure Ledger.Sound (taken : List Token) (ledger : Ledger) : Prop where
  advances : ledger.advances = none :: taken.map some
  pieces : ∀ count ∈ ledger.pieces, 0 < count
  rounds : ∀ loop count, (loop, count) ∈ ledger.rounds → 0 < count

/-- Of the tokens of a scan these have been taken, and those are left. -/
structure Parser.Stands (scan : Scan) (taken pending : List Token) (parser : Parser) :
    Prop where
  split : scan.tokens = taken ++ pending
  ahead : parser.lookahead = pending.head?
  read : parser.read = taken ++ pending.take 1
  unread : parser.reader.Leads scan.result pending
  ledger : parser.ledger.Sound taken

/-- The tokens in front of those that are left have grown into this. -/
def Parser.Holds (scan : Scan) (growth : Growth) (pending : List Token) (parser : Parser) :
    Prop :=
  ∃ taken, parser.Stands scan taken pending ∧ Growth.Takes pending.head? {} taken growth

/-- The descent stands between two tokens, and knows what the growth knows. -/
structure Parser.Faces (scan : Scan) (growth : Growth) (pending : List Token)
    (parser : Parser) : Prop where
  holds : parser.Holds scan growth pending
  depth : parser.depth = growth.openGroups
  dollarEnds : parser.dollarEnds = growth.dollarEnds

/-- The descent has failed like the growth of the whole pattern. -/
structure Descent.Fails (scan : Scan) (cause : Cause) (parser : Parser) : Prop where
  failed : Tree.ofScan scan =
    .error
      { cause := cause
        read := parser.read.length }
  read : parser.read <+: scan.tokens
  ledger : ∃ taken, taken <+: scan.tokens ∧ parser.ledger.Sound taken

/-! ### Ledgers -/

namespace Ledger.Sound

variable {taken : List Token} {ledger : Ledger}

/-- An advance takes the token that has been ahead. -/
theorem advance (sound : ledger.Sound taken) (token : Token) :
    { ledger with advances := ledger.advances ++ [some token] }.Sound (taken ++ [token]) where
  advances := by
    change ledger.advances ++ [some token] = _
    rw [sound.advances, List.map_append, List.map_singleton, List.cons_append]
  pieces := sound.pieces
  rounds := sound.rounds

theorem notePiece (sound : ledger.Sound taken) {count : Nat} (some : 0 < count) :
    { ledger with pieces := ledger.pieces ++ [count] }.Sound taken where
  advances := sound.advances
  pieces := by
    rw [List.forall_mem_append, List.forall_mem_singleton]
    exact ⟨sound.pieces, some⟩
  rounds := sound.rounds

theorem noteRound (sound : ledger.Sound taken) (loop : Loop) {count : Nat} (some : 0 < count) :
    { ledger with rounds := ledger.rounds ++ [(loop, count)] }.Sound taken where
  advances := sound.advances
  pieces := sound.pieces
  rounds := by
    intro other number among
    rw [List.mem_append, List.mem_singleton] at among
    rcases among with among | same
    · exact sound.rounds other number among
    · cases same
      exact some

end Ledger.Sound

/-! ### Growths -/

namespace Growth

variable {growth : Growth} {token : Token} {refusal : Refusal}

/-- A token that is refused early ends a run at once. -/
theorem run_early (refuses : growth.Refuses token refusal) (early : refusal.early = true)
    (outcome : Except ScanError Terminus) (read : Nat) (others : List Token) :
    growth.run outcome read (token :: others) =
      .error
        { cause := .parse refusal.cause
          read := read + 1 } := by
  simp only [run, refuses.eq_error, early]

/-- A token that is refused late ends a run once the token behind it has been read. -/
theorem run_late (refuses : growth.Refuses token refusal) (late : refusal.early = false)
    {outcome : Except ScanError Terminus} {others : List Token}
    (goesOn : others = [] → ∃ terminus, outcome = .ok terminus) (read : Nat) :
    growth.run outcome read (token :: others) =
      .error
        { cause := .parse refusal.cause
          read := read + 1 + (others.take 1).length } := by
  cases others with
  | nil =>
      obtain ⟨terminus, rfl⟩ := goesOn rfl
      simp only [run, refuses.eq_error, late]
  | cons next others => simp only [run, refuses.eq_error, late]

/-- Reading that is stopped right behind a token ends a run before the token can be refused. -/
theorem run_late_stopped (refuses : growth.Refuses token refusal) (late : refusal.early = false)
    (error : ScanError) (read : Nat) :
    growth.run (.error error) read [token] =
      .error
        { cause := .scan error
          read := read + 1 } := by
  simp only [run, refuses.eq_error, late]

/-- A growth that is not finished ends with its error. -/
theorem Unfinished.finish_eq {position : Nat} {error : ParseError}
    (unfinished : growth.Unfinished position error) :
    growth.finish position = .error error := by
  cases unfinished with
  | group outside scopes => simp [finish, outside, scopes]
  | collection inside => simp [finish, inside]
  | optional outside scopes => simp [finish, outside, scopes]

end Growth

/-! ### Tokens that are taken or refused -/

namespace Parser

open Descent

variable {scan : Scan} {growth : Growth} {taken others pending : List Token} {token : Token}
  {parser : Parser}

/-- An advance hands over what has been ahead, and brings the next token ahead. -/
theorem meets_advance {outcome : Except ScanError Terminus}
    (yields : parser.reader.Yields outcome pending) :
    Meets advance parser
      (fun found after =>
        found = parser.lookahead ∧
          after = { parser.asked with
            lookahead := pending.head?
            read := parser.read ++ pending.take 1 } ∧
            after.reader.Leads outcome pending)
      (fun cause after =>
        after = parser.asked ∧ pending = [] ∧
          ∃ error, cause = .scan error ∧ outcome = .error error) := by
  unfold Meets Descent.run advance
  cases yields with
  | token answer later =>
      rw [answer]
      exact .inl ⟨_, _, rfl, rfl, rfl, later⟩
  | ended answer finished =>
      rw [answer]
      refine .inl ⟨_, _, rfl, rfl, ?_, finished⟩
      rw [List.take_nil, List.append_nil]
      rfl
  | error answer failed =>
      rw [answer]
      exact .inr ⟨_, _, rfl, rfl, rfl, _, rfl, failed⟩

/-- The token ahead is taken, unless the reading is stopped right behind it. -/
theorem Stands.take (stands : parser.Stands scan taken (token :: others)) :
    Meets take parser
      (fun found after =>
        found = token ∧ after.Stands scan (taken ++ [token]) others ∧
          after.depth = parser.depth ∧ after.dollarEnds = parser.dollarEnds)
      (fun cause after =>
        others = [] ∧ (∃ error, cause = .scan error ∧ scan.result = .error error) ∧
          after.read = taken ++ [token] ∧ after.ledger.Sound (taken ++ [token])) := by
  have ahead : parser.lookahead = some token := stands.ahead
  have sound : parser.asked.ledger.Sound (taken ++ [token]) := by
    have further := stands.ledger.advance token
    rwa [← ahead] at further
  refine .bind ((meets_advance stands.unread).mono (fun _ _ => id) ?_) ?_
  · rintro cause after ⟨rfl, rfl, stopped⟩
    exact ⟨rfl, stopped, stands.read, sound⟩
  · rintro found after ⟨rfl, rfl, leads⟩
    rw [ahead]
    refine .pure ⟨rfl, ⟨?_, rfl, ?_, leads, sound⟩, rfl, rfl⟩
    · rw [stands.split, List.append_assoc, List.singleton_append]
    · exact congrArg (· ++ others.take 1) stands.read

/-- Growing over the whole pattern goes on where the descent stands. -/
theorem Stands.ofScan_eq (stands : parser.Stands scan taken pending)
    (takes : Growth.Takes pending.head? {} taken growth) :
    Tree.ofScan scan = growth.run scan.result taken.length pending := by
  rw [Tree.ofScan, stands.split, takes.run, Nat.zero_add]

/-- The tokens that the reader has answered with are the first ones of the scan. -/
theorem Stands.read_leading (stands : parser.Stands scan taken pending) :
    parser.read <+: scan.tokens := by
  rw [stands.read, stands.split]
  exact List.prefix_append_right_inj _ |>.2 (List.take_prefix 1 pending)

/-- Reading that is stopped right behind the last token makes the descent fail. -/
theorem Stands.fails_stopped {error : ScanError} {after : Parser}
    (stands : parser.Stands scan taken [token])
    (grown : Tree.ofScan scan =
      .error
        { cause := .scan error
          read := taken.length + 1 })
    (read : after.read = taken ++ [token]) (sound : after.ledger.Sound (taken ++ [token])) :
    Fails scan (.scan error) after where
  failed := by rw [grown, read, List.length_append, List.length_singleton]
  read := ⟨[], by rw [List.append_nil, read, stands.split]⟩
  ledger := ⟨_, List.prefix_rfl, stands.split ▸ sound⟩

/-- A token that the growth takes is taken. -/
theorem Holds.take {next : Growth} (holds : parser.Holds scan growth (token :: others))
    (step : Growth.Step growth token others.head? next) :
    Meets Descent.take parser
      (fun found after =>
        found = token ∧ after.Holds scan next others ∧ after.depth = parser.depth ∧
          after.dollarEnds = parser.dollarEnds)
      (Fails scan) := by
  obtain ⟨taken, stands, takes⟩ := holds
  have further : Growth.Takes others.head? {} (taken ++ [token]) next :=
    takes.append_cons step (.done next)
  refine stands.take.mono ?_ ?_
  · rintro found after ⟨rfl, moved, kept⟩
    exact ⟨rfl, ⟨_, moved, further⟩, kept⟩
  · rintro cause after ⟨rfl, ⟨error, rfl, stopped⟩, read, sound⟩
    refine stands.fails_stopped ?_ read sound
    rw [stands.ofScan_eq takes, Growth.run, step.eq_ok, stopped]
    rfl

/-- A token that the growth refuses late is taken in vain. -/
theorem Holds.take_refused {refusal : Refusal}
    (holds : parser.Holds scan growth (token :: others))
    (refuses : growth.Refuses token refusal) (late : refusal.early = false) :
    Meets Descent.take parser
      (fun found after => found = token ∧ Fails scan (.parse refusal.cause) after)
      (Fails scan) := by
  obtain ⟨taken, stands, takes⟩ := holds
  refine stands.take.mono ?_ ?_
  · rintro found after ⟨rfl, moved, -, -⟩
    refine ⟨rfl, ?_, moved.read_leading, _, ?_, moved.ledger⟩
    · rw [stands.ofScan_eq takes, Growth.run_late refuses late ?_, moved.read,
        List.length_append, List.length_append, List.length_singleton]
      rintro rfl
      exact ⟨_, moved.unread⟩
    · rw [moved.split]
      exact List.prefix_append _ _
  · rintro cause after ⟨rfl, ⟨error, rfl, stopped⟩, read, sound⟩
    refine stands.fails_stopped ?_ read sound
    rw [stands.ofScan_eq takes, stopped, Growth.run_late_stopped refuses late]

/-- A token that the growth refuses early is not taken. -/
theorem Holds.fails_early {refusal : Refusal}
    (holds : parser.Holds scan growth (token :: others))
    (refuses : growth.Refuses token refusal) (early : refusal.early = true) :
    Fails scan (.parse refusal.cause) parser := by
  obtain ⟨taken, stands, takes⟩ := holds
  refine ⟨?_, stands.read_leading, taken, ?_, stands.ledger⟩
  · rw [stands.ofScan_eq takes, Growth.run_early refuses early, stands.read,
      List.length_append]
    rfl
  · rw [stands.split]
    exact List.prefix_append _ _

/-- A growth that is not finished makes the descent fail at the end of the pattern. -/
theorem Holds.fails_unfinished {error : ParseError} (holds : parser.Holds scan growth [])
    (unfinished : growth.Unfinished parser.reader.position error) :
    Fails scan (.parse error) parser := by
  obtain ⟨taken, stands, takes⟩ := holds
  have ended : scan.result = .ok _ := stands.unread
  refine ⟨?_, stands.read_leading, taken, ?_, stands.ledger⟩
  · rw [stands.ofScan_eq takes, ended, Growth.run, stands.read, List.take_nil, List.append_nil]
    simp only [unfinished.finish_eq]
  · rw [stands.split]
    exact List.prefix_append _ _

end Parser

end VimPattern
