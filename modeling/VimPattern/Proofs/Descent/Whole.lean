/-
Module: VimPattern.Proofs.Descent.Whole
Purpose: The descent over a whole pattern comes to an end, and takes no token twice.
Main exports:
  Descent.Settled, Descent.meets_parse, Descent.settled_parse
-/
import VimPattern.Options
import VimPattern.Proofs.Descent.Atoms
import VimPattern.Proofs.Descent.Limits

namespace VimPattern.Descent

open Growth

/-!
The descent starts with no growth and with all tokens left.  It ends where the growth of the whole
pattern does, with the same tree or with the same failure.  How deep calls may be nested does not
matter, if it is deep enough for the number of tokens.
-/

/-- The result of a descent in the form that the growth of a pattern has. -/
def report (outcome : Except Cause (Tree .pattern)) (parser : Parser) : Except Failure Grown :=
  match outcome with
  | .ok tree =>
      .ok
        { tree := tree
          dollarEnds := parser.dollarEnds
          context := parser.reader.context }
  | .error cause =>
      .error
        { cause := cause
          read := parser.read.length }

/-- What is known once the descent over a whole pattern has come to its result. -/
structure Settled (scan : Scan) (outcome : Except Cause (Tree .pattern)) (parser : Parser) :
    Prop where
  /-- The first advance is the one in front of the first token.  At each of the others a token
  was ahead, and no token was ahead twice. -/
  advances : ∃ taken, taken <+: scan.tokens ∧ parser.ledger.advances = none :: taken.map some
  few : parser.ledger.advances.length ≤ scan.tokens.length + 1
  /-- A call for a piece that was successful took some token. -/
  pieces : ∀ count ∈ parser.ledger.pieces, 0 < count
  /-- A round of a loop that was completed took some token. -/
  rounds : ∀ loop count, (loop, count) ∈ parser.ledger.rounds → 0 < count
  /-- Growing over the tokens of the pattern has the same result. -/
  agrees : Tree.ofScan scan = report outcome parser

variable {scan : Scan} {parser : Parser} {outcome : Except Cause (Tree .pattern)}

/-- A descent whose ledger is sound has had few advances. -/
theorem settled_of_sound
    (sound : ∃ taken, taken <+: scan.tokens ∧ parser.ledger.Sound taken)
    (agrees : Tree.ofScan scan = report outcome parser) : Settled scan outcome parser := by
  obtain ⟨taken, leading, sound⟩ := sound
  refine ⟨⟨taken, leading, sound.advances⟩, ?_, sound.pieces, sound.rounds, agrees⟩
  rw [sound.advances, List.length_cons, List.length_map]
  exact Nat.succ_le_succ leading.length_le

/-- The first advance brings the first token ahead. -/
theorem meets_advance_start {level : Magicness} {pattern : String} :
    Meets advance (.start level pattern)
      (fun _ after =>
        after.Comes (Scan.ofPattern level pattern) {} ∧
          after.left (Scan.ofPattern level pattern) =
            (Scan.ofPattern level pattern).tokens.length)
      (Fails (Scan.ofPattern level pattern)) := by
  have yields := (Reader.behind_start level pattern).yields (List.nil_append _).symm
  have sound : (Parser.start level pattern).asked.ledger.Sound [] :=
    ⟨rfl, fun _ among => absurd among List.not_mem_nil,
      fun _ _ among => absurd among List.not_mem_nil⟩
  refine (Parser.meets_advance yields).mono ?_ ?_
  · rintro found after ⟨-, rfl, leads⟩
    have stands : Parser.Stands _ [] _ _ := ⟨(List.nil_append _).symm, rfl, rfl, leads, sound⟩
    have holds : Parser.Holds _ {} _ _ := ⟨[], stands, .done _⟩
    exact ⟨⟨false, _, holds, rfl, rfl⟩, holds.left_eq⟩
  · rintro cause after ⟨rfl, rests, error, rfl, stopped⟩
    refine ⟨?_, List.nil_prefix, [], List.nil_prefix, sound⟩
    rw [Tree.ofScan, rests, stopped]
    rfl

/-- At the end the tree is the one that has grown. -/
theorem settled_of_comes {tree : Tree .pattern}
    (comes : parser.Comes scan (({} : Growth).withDraft (.ofPattern tree)))
    (ended : parser.lookahead = none) : Settled scan (.ok tree) parser := by
  obtain ⟨ends, pending, holds, -, note⟩ := comes
  rw [holds.ahead, List.head?_eq_none_iff] at ended
  subst ended
  obtain ⟨taken, stands, takes⟩ := holds
  have finished : scan.result = .ok _ := stands.unread
  have finish : ((({} : Growth).withDraft (.ofPattern tree)).noting ends).finish
      parser.reader.position = .ok tree :=
    congrArg Except.ok (Draft.pattern_ofPattern tree)
  refine settled_of_sound ⟨taken, ⟨[], stands.split.symm⟩, stands.ledger⟩ ?_
  rw [stands.ofScan_eq takes, finished, Growth.run]
  simp only [finish]
  rw [report, note]

/-- A token that is left behind the whole pattern makes the descent fail. -/
theorem fails_of_comes {draft : Draft} {stray : Token}
    (comes : parser.Comes scan (({} : Growth).withDraft draft))
    (ahead : parser.lookahead = some stray) (ends : endsOperand parser.lookahead = true)
    (notOperand : Loop.operands.goesOn parser.lookahead = false)
    (notAlternative : Loop.alternatives.goesOn parser.lookahead = false) :
    stray.kind = .groupClose ∧ Fails scan (.parse (.unexpectedGroupEnd stray.position)) parser ∨
      stray.kind = .optionalClose ∧
        Fails scan (.parse (.unexpectedToken stray.raw stray.position)) parser := by
  have kind : stray.kind = .groupClose ∨ stray.kind = .optionalClose := by
    rw [ahead] at ends notOperand notAlternative
    simp [endsOperand, Loop.goesOn] at ends notOperand notAlternative
    simpa [notOperand, notAlternative] using ends
  rcases kind with kind | kind
  · exact .inl ⟨kind, comes.fails_early ahead (.groupEndOutside rfl kind rfl) rfl⟩
  · exact .inr ⟨kind, comes.fails_early ahead (.strayOptionalClose rfl kind rfl) rfl⟩

/-- The descent over a whole pattern comes to its tree, or fails like its growth. -/
theorem meets_parse {level : Magicness} {pattern : String} {limit : Nat}
    (enough : 8 * (Scan.ofPattern level pattern).tokens.length + 5 ≤ limit) :
    Meets (parse limit) (.start level pattern)
      (fun tree after => Settled (Scan.ofPattern level pattern) (.ok tree) after)
      (Fails (Scan.ofPattern level pattern)) := by
  rw [parse]
  refine .bind meets_advance_start ?_
  rintro - middle ⟨comes, left⟩
  refine .bind (meets_pattern (pieceMeets _ _) (by rwa [left]) rfl rfl comes) ?_
  rintro tree after ⟨further, -, ends, notOperand, notAlternative⟩
  refine .of_get ?_
  cases ahead : after.lookahead with
  | none => exact .pure (settled_of_comes further ahead)
  | some stray =>
      obtain ⟨kind, fails⟩ | ⟨kind, fails⟩ :=
        fails_of_comes further ahead ends notOperand notAlternative
      · simp only [kind]
        exact .of_refuse fails
      · simp only [kind]
        exact .of_refuse fails

/-- For every pattern and all options the descent comes to an end, which is the same within every
limit that leaves eight nested calls to each token, and five more.  It takes each token at most
once and never asks for more at the end of the pattern.  Each successful call for a piece and each
completed round of a loop has taken some token, and the result is the one that the growth of the
pattern has. -/
theorem settled_parse (options : Options) (pattern : String) :
    ∃ outcome after,
      (∀ limit, 8 * (Scan.ofPattern options.magicness pattern).tokens.length + 5 ≤ limit →
        (parse limit).run (.start options.magicness pattern) = some (outcome, after)) ∧
        Settled (Scan.ofPattern options.magicness pattern) outcome after := by
  obtain ⟨tree, after, result, settled⟩ | ⟨cause, after, result, fails⟩ :=
    meets_parse (Nat.le_refl (8 * (Scan.ofPattern options.magicness pattern).tokens.length + 5))
  · exact ⟨_, after, fun limit enough => parse_within enough _ _ result, settled⟩
  · exact ⟨_, after, fun limit enough => parse_within enough _ _ result,
      settled_of_sound fails.ledger fails.failed⟩

theorem settled_parse_unclosed :
    8 * (Scan.ofPattern .magic "\\(a\\|").tokens.length + 5 ≤ 29 ∧
      ∃ outcome after, (parse 29).run (.start .magic "\\(a\\|") = some (outcome, after) ∧
        Settled (Scan.ofPattern .magic "\\(a\\|") outcome after := by
  have enough : 8 * (Scan.ofPattern .magic "\\(a\\|").tokens.length + 5 ≤ 29 := by decide
  obtain ⟨outcome, after, result, settled⟩ := settled_parse {} "\\(a\\|"
  exact ⟨enough, outcome, after, result 29 enough, settled⟩

end VimPattern.Descent
