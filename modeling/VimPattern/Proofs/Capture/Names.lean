/-
Module: VimPattern.Proofs.Capture.Names
Purpose: The names that the groups of a converted pattern have.
Main exports:
  GroupName, GroupName.text, GroupName.text_injective, Lexeme.groupName?,
  Token.groupNames, Tally.Gave, Token.Counted.names
-/
import Mathlib.Data.List.Nodup
import VimPattern.Proofs.Scan.Tokens
import VimPattern.Proofs.Spelling.Written

namespace VimPattern

/-!
Only few tokens leave a group with a name: the first start and the first end of the
match, external groups, and capturing groups where these are named.  The tally knows
which names have been given already, and no token is given one of those.
-/

/-- What a group of a converted pattern can be named for. -/
inductive GroupName where
  | matchStart
  | matchEnd
  /-- The external group with this number. -/
  | external (number : Nat)
  /-- The capturing group with this number. -/
  | capture (number : Nat)
deriving Repr, DecidableEq

/-- The name as the target spells it. -/
def GroupName.text : GroupName → String
  | .matchStart => "zs"
  | .matchEnd => "ze"
  | .external number => "z" ++ toString number
  | .capture number => captureName number

/-- The name that is spelled like this. -/
def GroupName.ofLetters : List Char → GroupName
  | ['z', 's'] => .matchStart
  | ['z', 'e'] => .matchEnd
  | 'z' :: digits => .external (Digits.number 10 digits)
  | letters => .capture (Digits.number 10 (letters.drop 1))

/-- A name can be read back. -/
theorem GroupName.ofLetters_text (name : GroupName) : ofLetters name.text.toList = name := by
  cases name with
  | matchStart => rfl
  | matchEnd => rfl
  | external number =>
      have digits : ∀ letter, ¬letter.isDigit → (toString number).toList ≠ [letter] := by
        intro letter other same
        apply other
        apply isDigit_of_mem_toString
        rw [same]
        exact .head _
      rw [text, String.toList_append]
      change ofLetters ('z' :: (toString number).toList) = _
      rw [ofLetters, Digits.number_toString]
      · exact digits 's' (by decide)
      · exact digits 'e' (by decide)
  | capture number =>
      rw [text, captureName, String.toList_append]
      change capture (Digits.number 10 (toString number).toList) = _
      rw [Digits.number_toString]

/-- Different names are spelled differently. -/
theorem GroupName.text_injective : Function.Injective GroupName.text := by
  intro first second same
  rw [← ofLetters_text first, same, ofLetters_text]

/-! ### Names of tokens -/

variable {namedGroups : Bool}

/-- The name of the group that a lexeme leaves, if capturing groups have names or
not. -/
def Lexeme.groupName? (namedGroups : Bool) : Lexeme → Option GroupName
  | .literal (.matchStart true) => some .matchStart
  | .literal (.matchEnd true) => some .matchEnd
  | .groupOpen (.external number) => some (.external number)
  | .groupOpen (.capturing number) => if namedGroups then some (.capture number) else none
  | _ => none

/-- The name of the group that a token leaves. -/
def Token.groupName? (namedGroups : Bool) (token : Token) : Option GroupName :=
  token.lexeme.groupName? namedGroups

/-- The names of the groups that some tokens leave. -/
def Token.groupNames (namedGroups : Bool) (tokens : List Token) : List GroupName :=
  tokens.filterMap (groupName? namedGroups)

@[simp] theorem Token.groupNames_nil : groupNames namedGroups [] = [] := rfl

@[simp] theorem Token.groupNames_append (namedGroups : Bool) (front back : List Token) :
    groupNames namedGroups (front ++ back) =
      groupNames namedGroups front ++ groupNames namedGroups back :=
  List.filterMap_append

@[simp] theorem Token.groupNames_cons (namedGroups : Bool) (token : Token)
    (others : List Token) :
    groupNames namedGroups (token :: others) =
      (token.groupName? namedGroups).toList ++ groupNames namedGroups others := by
  unfold groupNames
  cases named : token.groupName? namedGroups with
  | none => exact List.filterMap_cons_none named
  | some name => exact List.filterMap_cons_some named

/-- A group with a name of its own has it, whether capturing groups have names or
not. -/
theorem Token.groupNames_subset (namedGroups : Bool) (tokens : List Token) :
    groupNames false tokens ⊆ groupNames namedGroups tokens := by
  intro name among
  obtain ⟨token, member, named⟩ := List.mem_filterMap.1 among
  refine List.mem_filterMap.2 ⟨token, member, ?_⟩
  unfold groupName? Lexeme.groupName? at *
  split at named <;> first | exact named | cases named

/-- A token leaves no group with a name if its meaning does not. -/
theorem Token.groupName?_eq_none {token : Token} {lexeme : Lexeme}
    (same : token.lexeme = lexeme) (unnamed : lexeme.groupName? namedGroups = none) :
    token.groupName? namedGroups = none := by
  rw [groupName?, same, unnamed]

/-- Members leave no groups. -/
theorem Token.groupNames_members {members : List Token}
    (lexed : ∀ token ∈ members, ∃ member,
      token.lexeme = .member member ∧ (Lexeme.member member).Readable) :
    groupNames namedGroups members = [] := by
  apply List.filterMap_eq_nil_iff.2
  intro token among
  obtain ⟨member, same, _⟩ := lexed token among
  exact groupName?_eq_none same rfl

/-- The name has been given to one of the tokens that the tally knows. -/
def Tally.Gave (tally : Tally) : GroupName → Prop
  | .matchStart => tally.matchStart
  | .matchEnd => tally.matchEnd
  | .external number => number ≤ tally.externalGroups
  | .capture number => number ≤ tally.plainGroups

/-- A token that is counted leaves all names given. -/
theorem Tally.Gave.record {tally : Tally} {name : GroupName} (gave : tally.Gave name)
    {lexeme : Lexeme} (countsOn : lexeme.CountsOn tally) :
    (tally.record lexeme).Gave name := by
  unfold Tally.record
  split
  · cases countsOn
    cases name with
    | capture number => exact Nat.le_succ_of_le gave
    | _ => exact gave
  · cases countsOn
    cases name with
    | external number => exact Nat.le_succ_of_le gave
    | _ => exact gave
  · cases name with
    | matchStart => rfl
    | _ => exact gave
  · cases name with
    | matchEnd => rfl
    | _ => exact gave
  · exact gave
  · exact gave
  · exact gave

/-- A name that a counted token is given is new, and has been given from then on. -/
theorem Lexeme.groupName?_fresh {tally : Tally} {lexeme : Lexeme} {name : GroupName}
     (countsOn : lexeme.CountsOn tally)
    (named : lexeme.groupName? namedGroups = some name) :
    ¬tally.Gave name ∧ (tally.record lexeme).Gave name := by
  unfold Lexeme.groupName? at named
  split at named
  · cases named
    have unset : true = !tally.matchStart := countsOn
    refine ⟨?_, rfl⟩
    intro gave
    rw [show tally.matchStart = true from gave] at unset
    cases unset
  · cases named
    have unset : true = !tally.matchEnd := countsOn
    refine ⟨?_, rfl⟩
    intro gave
    rw [show tally.matchEnd = true from gave] at unset
    cases unset
  · cases named
    cases countsOn
    exact ⟨Nat.not_succ_le_self _, Nat.le_refl _⟩
  · cases countsOn
    split at named
    · cases named
      exact ⟨Nat.not_succ_le_self _, Nat.le_refl _⟩
    · cases named
  · cases named

/-- No name that has been given is given again, and none is given twice. -/
theorem Token.Counted.names {tally : Tally} {tokens : List Token}
    (counted : Token.Counted tally tokens) (namedGroups : Bool) :
    (∀ name ∈ Token.groupNames namedGroups tokens, ¬tally.Gave name) ∧
      (Token.groupNames namedGroups tokens).Nodup := by
  induction tokens generalizing tally with
  | nil => exact ⟨by simp [groupNames], List.nodup_nil⟩
  | cons token others inductionHypothesis =>
      obtain ⟨countsOn, rest⟩ := counted
      obtain ⟨fresh, nodup⟩ := inductionHypothesis rest
      have older : ∀ name ∈ Token.groupNames namedGroups others, ¬tally.Gave name :=
        fun name among gave => fresh name among (gave.record countsOn)
      rw [groupNames_cons]
      cases named : token.groupName? namedGroups with
      | none => exact ⟨older, nodup⟩
      | some name =>
          obtain ⟨new, given⟩ := Lexeme.groupName?_fresh countsOn named
          refine ⟨List.forall_mem_cons.2 ⟨new, older⟩, List.nodup_cons.2 ⟨?_, nodup⟩⟩
          exact fun among => fresh name among given

end VimPattern
