/-
Module: VimPattern.Proofs.Target.Atoms
Purpose: The atoms of target text, and how a text is cut into them.
Main exports:
  Target.Ordinary, Target.Bracketed, Target.Grouped, Target.Atom, Target.Atom.eq_of_append,
  Target.Cut, Target.Cut.unique, Target.Cut.grouped, Target.Single, Target.single_iff
-/
import VimPattern.Proofs.Target.Nesting

namespace VimPattern.Target

/-!
What a quantifier of the target repeats is the atom before it: a character that stands for
itself, an escape, a bracket expression or a group.  Brackets and groups may contain one
another, and only what is inside tells where they end.  Still no atom begins with another one,
so that a text can be cut into atoms in one way at most.
-/

/-- A character that stands for itself. -/
def Ordinary (char : Char) : Prop :=
  char ∉ Escape.metacharacters ∧ char ≠ '\\'

instance (char : Char) : Decidable (Ordinary char) :=
  inferInstanceAs (Decidable (_ ∧ _))

/-- How many characters an escape has behind its letter, unless it has a name in braces. -/
def arity : Char → Nat
  | 'p' | 'P' => 1
  | 'x' => 2
  | 'u' => 4
  | 'U' => 8
  | _ => 0

/-- What has been read of a bracket expression. -/
inductive Stage where
  /-- Nothing but its bracket. -/
  | opened
  /-- The bracket and the caret that negates the expression. -/
  | negated
  /-- At least one of its members. -/
  | listing
deriving Repr, DecidableEq

/-- The rest of a bracket expression up to the bracket that closes it. -/
inductive Bracketed : Stage → List Char → Prop where
  | nil : Bracketed .listing []
  | caret {others : List Char} (rest : Bracketed .negated others) :
      Bracketed .opened ('^' :: others)
  /-- A closing bracket that would come first is a member. -/
  | closing {stage : Stage} {others : List Char} (first : stage ≠ .listing)
      (rest : Bracketed .listing others) : Bracketed stage (']' :: others)
  | char {stage : Stage} {char : Char} {others : List Char} (free : char ∉ ['\\', '[', ']'])
      (first : stage = .opened → char ≠ '^') (rest : Bracketed .listing others) :
      Bracketed stage (char :: others)
  | escape {stage : Stage} {char : Char} {others : List Char}
      (rest : Bracketed .listing others) : Bracketed stage ('\\' :: char :: others)
  | nested {stage : Stage} {inner others : List Char} (inside : Bracketed .opened inner)
      (rest : Bracketed .listing others) : Bracketed stage ('[' :: (inner ++ ']' :: others))

/-- The inside of a group. -/
inductive Grouped : List Char → Prop where
  | nil : Grouped []
  | char {char : Char} {others : List Char} (free : char ∉ ['\\', '[', '(', ')'])
      (rest : Grouped others) : Grouped (char :: others)
  | escape {char : Char} {others : List Char} (rest : Grouped others) :
      Grouped ('\\' :: char :: others)
  | bracket {inner others : List Char} (inside : Bracketed .opened inner)
      (rest : Grouped others) : Grouped ('[' :: (inner ++ ']' :: others))
  | group {inner others : List Char} (inside : Grouped inner) (rest : Grouped others) :
      Grouped ('(' :: (inner ++ ')' :: others))

/-- An atom of the target. -/
inductive Atom : List Char → Prop where
  | char {char : Char} (ordinary : Ordinary char) : Atom [char]
  | escape {char : Char} {argument : List Char} (length : argument.length = arity char)
      (ordinary : ∀ char ∈ argument, Ordinary char) : Atom ('\\' :: char :: argument)
  | named {char : Char} {name : List Char} (takes : arity char ≠ 0)
      (ordinary : ∀ char ∈ name, Ordinary char) :
      Atom ('\\' :: char :: '\x7b' :: (name ++ ['\x7d']))
  | bracket {inner : List Char} (inside : Bracketed .opened inner) :
      Atom ('[' :: (inner ++ [']']))
  | group {inner : List Char} (inside : Grouped inner) : Atom ('(' :: (inner ++ [')']))

/-! ### Where atoms end -/

/-- A construct that is open. -/
inductive Open where
  | group
  | bracket (stage : Stage)
deriving Repr, DecidableEq

/-- What is open behind a character in place of the construct that it stands in, the innermost
first. -/
def Open.next : Open → Char → List Open
  | .group, char =>
      if char = ')' then []
      else if char = '(' then [.group, .group]
      else if char = '[' then [.bracket .opened, .group]
      else [.group]
  | .bracket stage, char =>
      if char = '[' then [.bracket .opened, .bracket .listing]
      else if char = '^' ∧ stage = .opened then [.bracket .negated]
      else if char = ']' ∧ stage = .listing then []
      else [.bracket .listing]

/-- What is open behind an escape. -/
def Open.escaped : Open → Open
  | .group => .group
  | .bracket _ => .bracket .listing

/-- The text behind the character that closes the last of the open constructs. -/
def behind? : List Open → List Char → Option (List Char)
  | [], text => some text
  | _ :: _, [] | _ :: _, ['\\'] => none
  | innermost :: outer, '\\' :: _ :: text => behind? (innermost.escaped :: outer) text
  | innermost :: outer, char :: text => behind? (innermost.next char ++ outer) text

theorem behind?_cons {char : Char} (bare : char ≠ '\\') (innermost : Open) (outer : List Open)
    (text : List Char) :
    behind? (innermost :: outer) (char :: text) = behind? (innermost.next char ++ outer) text := by
  rw [behind?]
  · exact fun same => absurd same bare
  · exact fun _ _ same => absurd same bare

/-- A bracket expression is read up to its end, whatever is around it. -/
theorem Bracketed.behind?_eq {stage : Stage} {inner : List Char}
    (bracketed : Bracketed stage inner) (outer : List Open) (text : List Char) :
    behind? (.bracket stage :: outer) (inner ++ ']' :: text) = behind? outer text := by
  induction bracketed generalizing outer text with
  | nil => exact behind?_cons (by decide) _ _ _
  | caret rest inductionHypothesis =>
      rw [List.cons_append, behind?_cons (by decide)]
      exact inductionHypothesis outer text
  | closing first rest inductionHypothesis =>
      rw [List.cons_append, behind?_cons (by decide)]
      simpa [Open.next, first] using inductionHypothesis outer text
  | char free first rest inductionHypothesis =>
      simp only [List.mem_cons, List.not_mem_nil, or_false, not_or] at free
      obtain ⟨bare, opens, closes⟩ := free
      rw [List.cons_append, behind?_cons bare, Open.next, if_neg opens,
        if_neg fun negates => first negates.2 negates.1, if_neg fun ends => closes ends.1]
      exact inductionHypothesis outer text
  | escape rest inductionHypothesis => exact inductionHypothesis outer text
  | nested inside rest within inductionHypothesis =>
      rw [List.cons_append, List.append_assoc, List.cons_append, behind?_cons (by decide)]
      exact (within _ _).trans (inductionHypothesis outer text)

/-- A group is read up to its end, whatever is around it. -/
theorem Grouped.behind?_eq {inner : List Char} (grouped : Grouped inner) (outer : List Open)
    (text : List Char) :
    behind? (.group :: outer) (inner ++ ')' :: text) = behind? outer text := by
  induction grouped generalizing outer text with
  | nil => exact behind?_cons (by decide) _ _ _
  | char free rest inductionHypothesis =>
      simp only [List.mem_cons, List.not_mem_nil, or_false, not_or] at free
      obtain ⟨bare, brackets, opens, closes⟩ := free
      rw [List.cons_append, behind?_cons bare, Open.next, if_neg closes, if_neg opens,
        if_neg brackets]
      exact inductionHypothesis outer text
  | escape rest inductionHypothesis => exact inductionHypothesis outer text
  | bracket inside rest inductionHypothesis =>
      rw [List.cons_append, List.append_assoc, List.cons_append, behind?_cons (by decide)]
      exact (inside.behind?_eq _ _).trans (inductionHypothesis outer text)
  | group inside rest within inductionHypothesis =>
      rw [List.cons_append, List.append_assoc, List.cons_append, behind?_cons (by decide)]
      exact (within _ _).trans (inductionHypothesis outer text)

/-- The text behind the atom that a text begins with. -/
def afterAtom? : List Char → Option (List Char)
  | [] => none
  | '[' :: text => behind? [.bracket .opened] text
  | '(' :: text => behind? [.group] text
  | '\\' :: char :: text =>
      if arity char ≠ 0 ∧ text.head? = some '\x7b' then
        some ((text.dropWhile fun char => char ≠ '\x7d').drop 1)
      else some (text.drop (arity char))
  | _ :: text => some text

theorem Ordinary.not_mem {char : Char} (ordinary : Ordinary char) :
    char ∉ ['\\', '[', '(', ')', '\x7b', '\x7d'] := by
  obtain ⟨inactive, bare⟩ := ordinary
  simp [Escape.metacharacters] at inactive ⊢
  simp [bare, inactive]

/-- Behind an atom there is whatever comes behind it. -/
theorem Atom.afterAtom?_eq {atom : List Char} (isAtom : Atom atom) (text : List Char) :
    afterAtom? (atom ++ text) = some text := by
  cases isAtom with
  | char ordinary =>
      have other := ordinary.not_mem
      simp at other
      rw [List.singleton_append, afterAtom?]
      all_goals simp_all
  | @escape char argument length ordinary =>
      rw [List.cons_append, List.cons_append, afterAtom?, if_neg, List.drop_left' length]
      rintro ⟨takes, brace⟩
      cases argument with
      | nil => exact takes length.symm
      | cons first rest =>
          cases brace
          exact absurd (ordinary _ (.head _)) (by decide)
  | @named char name takes ordinary =>
      have inside : ∀ char ∈ '\x7b' :: name, decide (char ≠ '\x7d') = true := by
        refine List.forall_mem_cons.2 ⟨by decide, fun char among => ?_⟩
        have other := (ordinary char among).not_mem
        simp at other
        simp [other]
      have split : '\\' :: char :: '\x7b' :: (name ++ ['\x7d']) ++ text =
          '\\' :: char :: (('\x7b' :: name) ++ '\x7d' :: text) := by
        simp
      rw [split, afterAtom?, if_pos ⟨takes, rfl⟩, List.dropWhile_append_of_pos inside]
      rfl
  | bracket inside =>
      rw [List.cons_append, List.append_assoc, List.singleton_append, afterAtom?,
        inside.behind?_eq, behind?]
  | group inside =>
      rw [List.cons_append, List.append_assoc, List.singleton_append, afterAtom?,
        inside.behind?_eq, behind?]

/-- No atom begins with another one. -/
theorem Atom.eq_of_append {atom other : List Char} (first : Atom atom) (second : Atom other)
    {left right : List Char} (same : atom ++ left = other ++ right) : atom = other := by
  have rests : some left = some right := by
    rw [← first.afterAtom?_eq left, same, second.afterAtom?_eq right]
  cases rests
  exact List.append_cancel_right same

theorem Atom.ne_nil {atom : List Char} (isAtom : Atom atom) : atom ≠ [] := by
  cases isAtom <;> simp

/-! ### Cutting a text -/

/-- The text is put together from these atoms. -/
structure Cut (text : List Char) (atoms : List (List Char)) : Prop where
  atom : ∀ atom ∈ atoms, Atom atom
  joined : atoms.flatten = text

/-- A text can be cut in one way only. -/
theorem Cut.unique {text : List Char} {atoms others : List (List Char)} (cut : Cut text atoms)
    (again : Cut text others) : atoms = others := by
  induction atoms generalizing text others with
  | nil =>
      cases others with
      | nil => rfl
      | cons other others =>
          have empty : (other :: others).flatten = [] := again.joined.trans cut.joined.symm
          have first := (again.atom other (.head _)).ne_nil
          simp_all
  | cons atom atoms inductionHypothesis =>
      obtain ⟨first, rest⟩ := List.forall_mem_cons.1 cut.atom
      cases others with
      | nil =>
          have empty : (atom :: atoms).flatten = [] := cut.joined.trans again.joined.symm
          have some := first.ne_nil
          simp_all
      | cons other others =>
          obtain ⟨second, more⟩ := List.forall_mem_cons.1 again.atom
          have same : atom ++ atoms.flatten = other ++ others.flatten :=
            cut.joined.trans again.joined.symm
          obtain rfl := first.eq_of_append second same
          have joined := List.append_cancel_left same
          rw [inductionHypothesis ⟨rest, rfl⟩ ⟨more, joined.symm⟩]

/-- Each atom takes at least one character. -/
theorem Cut.length_le {text : List Char} {atoms : List (List Char)} (cut : Cut text atoms) :
    atoms.length ≤ text.length := by
  obtain ⟨all, rfl⟩ := cut
  induction atoms with
  | nil => exact Nat.le_refl _
  | cons atom atoms inductionHypothesis =>
      obtain ⟨first, rest⟩ := List.forall_mem_cons.1 all
      have some := List.length_pos_iff.2 first.ne_nil
      have others := inductionHypothesis rest
      rw [List.flatten_cons, List.length_append, List.length_cons]
      omega

/-- The text can be cut into atoms, and that only as a whole, so that a quantifier behind it
repeats all of it. -/
def Single (text : List Char) : Prop :=
  ∀ atoms, Cut text atoms ↔ atoms = [text]

theorem single_iff {text : List Char} : Single text ↔ Atom text := by
  constructor
  · intro single
    exact ((single [text]).2 rfl).atom text (.head _)
  · intro isAtom atoms
    have whole : Cut text [text] := ⟨List.forall_mem_singleton.2 isAtom, List.flatten_singleton⟩
    exact ⟨fun cut => cut.unique whole, fun same => same ▸ whole⟩

/-! ### Atoms in groups -/

theorem Grouped.append {front back : List Char} (early : Grouped front) (late : Grouped back) :
    Grouped (front ++ back) := by
  induction early with
  | nil => exact late
  | char free _ inductionHypothesis => exact .char free inductionHypothesis
  | escape _ inductionHypothesis => exact .escape inductionHypothesis
  | bracket inside _ inductionHypothesis =>
      rw [List.cons_append, List.append_assoc, List.cons_append]
      exact .bracket inside inductionHypothesis
  | group inside _ _ inductionHypothesis =>
      rw [List.cons_append, List.append_assoc, List.cons_append]
      exact .group inside inductionHypothesis

/-- Ordinary characters can stand in a group. -/
theorem grouped_of_ordinary {text : List Char} (ordinary : ∀ char ∈ text, Ordinary char) :
    Grouped text := by
  induction text with
  | nil => exact .nil
  | cons char others inductionHypothesis =>
      obtain ⟨first, rest⟩ := List.forall_mem_cons.1 ordinary
      refine .char ?_ (inductionHypothesis rest)
      have other := first.not_mem
      simp at other ⊢
      simp [other]

theorem Atom.grouped {atom : List Char} (isAtom : Atom atom) : Grouped atom := by
  cases isAtom with
  | char ordinary => exact grouped_of_ordinary (List.forall_mem_singleton.2 ordinary)
  | escape _ ordinary => exact .escape (grouped_of_ordinary ordinary)
  | named _ ordinary =>
      have closing : Grouped ['\x7d'] := .char (by decide) .nil
      exact .escape (.char (by decide) ((grouped_of_ordinary ordinary).append closing))
  | bracket inside => exact .bracket inside .nil
  | group inside => exact .group inside .nil

theorem Cut.grouped {text : List Char} {atoms : List (List Char)} (cut : Cut text atoms) :
    Grouped text := by
  obtain ⟨all, rfl⟩ := cut
  induction atoms with
  | nil => exact .nil
  | cons atom atoms inductionHypothesis =>
      obtain ⟨first, rest⟩ := List.forall_mem_cons.1 all
      exact first.grouped.append (inductionHypothesis rest)

/-- What stands between the parentheses of a group that does not capture. -/
theorem atom_cluster {inner : String} (grouped : Grouped inner.toList) :
    Atom ("(?:" ++ inner ++ ")").toList := by
  have marked : Grouped ('?' :: ':' :: inner.toList) :=
    .char (by decide) (.char (by decide) grouped)
  simpa using Atom.group marked

/-! ### Bodies of bracket expressions -/

/-- A body lists its characters and escapes. -/
theorem Bracketed.of_isBody {stage : Stage} {text : List Char} (body : isBody text)
    (written : stage ≠ .listing → text ≠ [])
    (noCaret : stage = .opened → text.head? ≠ some '^') : Bracketed stage text := by
  induction text using escape_induction generalizing stage with
  | nil =>
      cases stage with
      | listing => exact .nil
      | opened | negated => exact absurd rfl (written (by decide))
  | lone => cases body
  | escape char others inductionHypothesis =>
      exact .escape (inductionHypothesis body (absurd rfl) fun opened => by cases opened)
  | bare char others bare inductionHypothesis =>
      rw [isBody_bare bare] at body
      simp only [Bool.and_eq_true, bne_iff_ne, ne_eq] at body
      have free : char ∉ ['\\', '[', ']'] := by simp [bare, body.1]
      refine .char free (fun opened same => noCaret opened (by rw [same]; rfl)) ?_
      exact inductionHypothesis body.2 (absurd rfl) fun opened => by cases opened

/-- A body that lists something is the inside of a bracket expression. -/
theorem bracketed_of_isBody {text : List Char} (body : isBody text) (written : text ≠ [])
    (listing : text ≠ ['^']) : Bracketed .opened text := by
  by_cases negated : text.head? = some '^'
  · obtain ⟨others, rfl⟩ : ∃ others, text = '^' :: others := List.head?_eq_some_iff.1 negated
    exact .caret
      (.of_isBody body (fun _ none => listing (by rw [none])) fun opened => by cases opened)
  · exact .of_isBody body (fun _ => written) fun _ => negated

end VimPattern.Target
