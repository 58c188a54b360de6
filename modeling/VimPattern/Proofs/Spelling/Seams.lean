/-
Module: VimPattern.Proofs.Spelling.Seams
Purpose: The members of a collection next to each other between the brackets of the target.
Main exports:
  Collection.Bracket, Context.exists_bracket_of_verdict, Token.Opens, Collection.Opening.inner,
  Collection.Fills, Collection.Fills.member, Scan.Reaches.exists_fills, Scan.flat_collection
-/
import Mathlib.Data.List.Basic
import VimPattern.Conversion
import VimPattern.Proofs.Grammar.Derivation
import VimPattern.Proofs.Scan.Enclosures
import VimPattern.Proofs.Scan.Sites
import VimPattern.Proofs.Target.Flat
import VimPattern.Proofs.Tree.Parts

namespace VimPattern

/-!
The members of a collection are written one behind another, and the text of each is free of
brackets and of operators on sets.  An operator could still come about between two of them.
What keeps two dashes apart is the way they are read: a dash that stands for itself is never
followed by another, since the two are then one member, which comes with an escape.  So the
invariant of reading ties the end of what is written to the text that is left in the pattern.
A caret that means itself does not come first for a similar reason: right behind the bracket it
would have been read as the sign of the complement.
-/

open Target

/-! ### Openings -/

/-- The brackets that open a collection, and whether it then also accepts a line break. -/
inductive Collection.Bracket : Bool → List Char → Prop
  | bare : Bracket false ['[']
  | escaped : Bracket false ['\\', '[']
  | orBreak : Bracket true ['\\', '_', '[']

namespace Context

variable {context : Context}

/-- What opens a collection is a bracket with the signs that stand right behind it. -/
theorem exists_bracket_of_verdict {char : Char} {text : List Char}
    {opening : Collection.Opening} {extra : Nat}
    (verdict : context.verdict char text = .item (.lexeme (.collectionOpen opening)) extra) :
    ∃ bracket inner taken, char :: text = bracket ++ inner ∧
      Collection.Bracket opening.withBreak bracket ∧
        Collection.readOpening opening.withBreak inner = (opening, taken) ∧
          text.drop extra = inner.drop taken := by
  have outside := (admits_of_verdict verdict).standsIn.eq_none fun _ => id
  have split : char :: text = (char :: text.take extra) ++ text.drop extra := by
    rw [List.cons_append, List.take_append_drop]
  have spells := spellsOutside_of_verdict verdict outside
  generalize char :: text.take extra = raw at spells split
  generalize same : Content.lexeme (.collectionOpen opening) = content at spells
  cases spells with
  | @operator operator escaped behind content taken active means =>
      cases means <;> cases same
      rw [List.append_assoc] at split
      generalize behind.take (Collection.readOpening false behind).2 ++ text.drop extra = inner
        at split
      have read : Operator.collection.read? context escaped inner =
          some (.lexeme (.collectionOpen (Collection.readOpening false inner).1),
            (Collection.readOpening false inner).2) := rfl
      obtain ⟨first, others, size, spelled, found, left⟩ :=
        verdict_operator outside active read
      obtain ⟨rfl, rfl⟩ := List.cons_eq_cons.1 (split.trans spelled)
      obtain ⟨same, rfl⟩ := Verdict.item.inj (verdict.symm.trans found)
      refine ⟨_, inner, (Collection.readOpening false inner).2, split, ?_, ?_, left⟩
      · rw [Operator.spelling_of_isActive active]
        cases escaped with
        | true => exact .escaped
        | false => exact .bare
      · exact Prod.ext (Lexeme.collectionOpen.inj (Content.lexeme.inj same)).symm rfl
  | collectionOrBreak behind =>
      cases same
      rw [List.cons_append, List.cons_append, List.cons_append] at split
      generalize behind.take (Collection.readOpening true behind).2 ++ text.drop extra = inner
        at split
      obtain ⟨rfl, rfl⟩ := List.cons_eq_cons.1 split
      have found : context.verdict '\\' ('_' :: '[' :: inner) =
          .item (.lexeme (.collectionOpen (Collection.readOpening true inner).1))
            ((Collection.readOpening true inner).2 + 2) := by
        rw [verdict_outside outside]
        rfl
      obtain ⟨same, rfl⟩ := Verdict.item.inj (verdict.symm.trans found)
      refine ⟨_, inner, (Collection.readOpening true inner).2, rfl, .orBreak, ?_, rfl⟩
      exact Prod.ext (Lexeme.collectionOpen.inj (Content.lexeme.inj same)).symm rfl
  | _ => cases same

end Context

/-- The token opens a collection in the pattern: it is found there as a bracket, and the
collection is negated just if a caret stands behind the bracket. -/
structure Token.Opens (pattern : String) (token : Token) (opening : Collection.Opening) :
    Prop where
  lexeme : token.lexeme = .collectionOpen opening
  exists_bracket : ∃ bracket inner, Scan.Remains pattern token.position (bracket ++ inner) ∧
    Collection.Bracket opening.withBreak bracket ∧
      (opening.negated = true ↔ inner.head? = some '^')

/-! ### Bodies -/

namespace Collection

/-- What stands between the brackets of the target. -/
def Opening.inner (style : Style) (opening : Opening) (members : List Token) : List Char :=
  opening.prelude.toList ++ (Token.textOf style members).toList

/-- The text of a collection is a bracket expression, in a group with the line break if it
accepts one. -/
theorem toList_text_collection {style : Style} {opener closer : Token} {opening : Opening}
    (opens : opener.lexeme = .collectionOpen opening)
    (closes : closer.lexeme = .collectionClose opening.withBreak) (members : List Token) :
    ((Tree.collection opener members closer).text style).toList =
      (if opening.withBreak then ("(?:" ++ style.options.newLine ++ "|").toList else []) ++
        '[' :: (opening.inner style members ++
          ']' :: (if opening.withBreak then [')'] else [])) := by
  rw [Tree.text_collection, Token.text, opens, Token.text, closes]
  dsimp only
  rw [text_eq]
  split <;> simp [Opening.inner]

/-- Between the brackets of a collection these members have been read, and this text of the
pattern is left: nothing between the brackets nests or combines sets, and neither does
anything that can be read next make a doubled dash of the last one.  A caret comes first just
in the negated collections; where nothing has been written yet, none can be read next. -/
structure Fills (style : Style) (opening : Opening) (members : List Token)
    (rest : List Char) : Prop where
  kind : ∀ token ∈ members, token.kind = .literal
  flat : Flat (opening.inner style members)
  dash : trailing? (opening.inner style members) = some '-' → rest.head? ≠ some '-'
  caret : (opening.inner style members).head? = some '^' ↔ opening.negated = true
  empty : opening.inner style members = [] → rest.head? ≠ some '^'

/-- A collection is negated just if a caret stands behind its bracket, and where nothing is
written for the opening nothing has been read. -/
theorem of_readOpening {withBreak : Bool} {text : List Char} {opening : Opening} {taken : Nat}
    (read : readOpening withBreak text = (opening, taken)) :
    (opening.negated = true ↔ text.head? = some '^') ∧
      (opening.prelude.toList = [] → opening.negated = false ∧ taken = 0) := by
  obtain ⟨rfl, rfl⟩ := Prod.mk.inj read
  refine ⟨beq_iff_eq, ?_⟩
  rw [Opening.toList_prelude]
  dsimp only
  cases text.head? == some '^' with
  | true => exact nofun
  | false =>
      intro nothing
      have bracket : text.head? ≠ some ']' := by simpa using nothing
      exact ⟨rfl, by simp [bracket]⟩

/-- Right behind the opening nothing but its own text has been written. -/
theorem fills_opening (style : Style) {withBreak : Bool} {text : List Char} {opening : Opening}
    {taken : Nat} (read : readOpening withBreak text = (opening, taken)) :
    Fills style opening [] (text.drop taken) := by
  obtain ⟨caret, empty⟩ := of_readOpening read
  have written : opening.inner style [] = opening.prelude.toList := by simp [Opening.inner]
  exact
    { kind := List.forall_mem_nil _
      flat := by
        rw [written, Opening.toList_prelude]
        rcases opening with ⟨_, _ | _, _ | _⟩ <;> exact ⟨rfl, rfl⟩
      dash := by
        have ends : trailing? opening.prelude.toList ≠ some '-' := by
          rw [Opening.toList_prelude]
          rcases opening with ⟨_, _ | _, _ | _⟩ <;> simp [trailing?]
        rw [written]
        exact fun same => absurd same ends
      caret := by
        rw [written, Opening.toList_prelude]
        rcases opening with ⟨_, _ | _, _ | _⟩ <;> simp
      empty := by
        rw [written]
        intro nothing first
        obtain ⟨notNegated, rfl⟩ := empty nothing
        rw [List.drop_zero, ← caret, notNegated] at first
        cases first }

/-- One more member is written behind the others. -/
theorem Opening.inner_concat (style : Style) (opening : Opening) (members : List Token)
    (token : Token) :
    opening.inner style (members ++ [token]) =
      opening.inner style members ++ (token.text style).toList := by
  simp [Opening.inner, Token.textOf]

/-- A character that stands for itself is spelled as itself. -/
theorem Spells.head?_plain {withBreak : Bool} {raw : List Char} {char : Char}
    (spells : Spells withBreak raw (.lexeme (.member (.plain char)))) :
    raw.head? = some char := by
  cases spells
  rfl

/-- A member whose text starts with a dash or a caret is spelled with that in front. -/
theorem Spells.head?_of_seamed {withBreak : Bool} {raw : List Char} {member : Member}
    (spells : Spells withBreak raw (.lexeme (.member member))) {text : List Char}
    (seamed : member.Seamed text) {sign : Char} (among : sign = '-' ∨ sign = '^')
    (starts : text.head? = some sign) : raw.head? = some sign := by
  rcases among with rfl | rfl
  · rcases seamed.dash starts with rfl | rfl
    · exact spells.head?_plain
    · cases spells
      rfl
  · obtain rfl := seamed.caret starts
    exact spells.head?_plain

/-- Behind a dash that stands for itself there is no other one. -/
theorem head?_drop_of_dash {withBreak : Bool} {char : Char} {text : List Char} {extra : Nat}
    (verdict : Verdict.inCollection withBreak char text =
      .item (.lexeme (.member (.plain '-'))) extra) : (text.drop extra).head? ≠ some '-' := by
  have spelled := Verdict.isSpelled_inCollection withBreak char text
  rw [verdict] at spelled
  obtain rfl : char = '-' := Option.some.inj spelled.head?_plain
  rw [Verdict.inCollection] at verdict
  split at verdict
  · cases verdict
  · next single =>
      cases verdict
      exact fun same => single (beq_iff_eq.2 same)

namespace Fills

/-- A member is written behind the others without an operator between them. -/
theorem member {style : Style} (joinable : style.options.Joinable) {opening : Opening}
    {members : List Token} {context : Context} {withBreak : Bool} {char : Char}
    {text : List Char} {token : Token} {member : Member} {extra : Nat}
    (fills : Fills style opening members (char :: text))
    (inside : context.collection? = some withBreak)
    (verdict : context.verdict char text = .item (.lexeme (.member member)) extra)
    (same : token.lexeme = .member member) :
    Fills style opening (members ++ [token]) (text.drop extra) := by
  have seamed := Member.seamed_text joinable (Context.admits_of_verdict verdict).readable
  rw [Context.verdict_inside inside] at verdict
  have spelled := Verdict.isSpelled_inCollection withBreak char text
  rw [verdict] at spelled
  have starts {sign : Char} (among : sign = '-' ∨ sign = '^')
      (head : (member.text style).toList.head? = some sign) :
      (char :: text).head? = some sign :=
    spelled.head?_of_seamed seamed among head
  have written : opening.inner style (members ++ [token]) =
      opening.inner style members ++ (member.text style).toList := by
    rw [Opening.inner_concat, Token.text, same]
  exact
    { kind := by
        rw [List.forall_mem_append, List.forall_mem_singleton, Token.kind, same]
        exact ⟨fills.kind, rfl⟩
      flat := by
        rw [written]
        refine fills.flat.append seamed.flat fun sign operator ends head => ?_
        rcases List.mem_cons.1 operator with rfl | other
        · exact fills.dash ends (starts (.inl rfl) head)
        · exact seamed.free sign other head
      dash := by
        rw [written, trailing?_append fills.flat.isBody seamed.nonempty]
        intro ends
        obtain rfl := seamed.trailing ends
        exact head?_drop_of_dash verdict
      caret := by
        rw [written, ← fills.caret]
        cases before : opening.inner style members with
        | nil =>
            -- A caret right behind the bracket is the sign of the complement.
            refine iff_of_false (fun head => fills.empty before (starts (.inr rfl) head)) ?_
            rintro ⟨⟩
        | cons earlier others => rfl
      empty := by
        rw [written]
        intro nothing
        exact absurd (List.append_eq_nil_iff.1 nothing).2 seamed.nonempty }

end Fills

end Collection

/-! ### Whole patterns -/

namespace Scan

variable {style : Style} {level : Magicness} {pattern : String}

/-- Where reading is inside a collection, its opening and its members so far are the last tokens
that have been read. -/
theorem Reaches.exists_fills (joinable : style.options.Joinable) {items : List Item}
    {context : Context} {position : Nat} {rest : List Char}
    (reaches : Reaches level pattern items context position rest) {withBreak : Bool}
    (inside : context.collection? = some withBreak) :
    ∃ before opener opening members,
      items.filterMap Item.token? = before ++ opener :: members ∧
        Token.Opens pattern opener opening ∧ opening.withBreak = withBreak ∧
          Collection.Fills style opening members rest := by
  induction reaches generalizing withBreak with
  | start => cases inside
  | @item items context position char text content extra comes verdict inductionHypothesis =>
      cases content with
      | mark mark =>
          -- Inside a collection every item leaves a token.
          rw [contextAfter, Context.collection?, context.enclosing_afterMark,
            ← Context.collection?, Context.outside_of_mark verdict] at inside
          cases inside
      | lexeme lexeme =>
          let token : Token :=
            { lexeme := lexeme
              raw := String.ofList (char :: text.take extra)
              position := position
              magicness := context.magicness }
          have last : (items ++ [itemAt context (.lexeme lexeme) (char :: text.take extra)
              position]).filterMap Item.token? = items.filterMap Item.token? ++ [token] :=
            List.filterMap_append
          have standsIn := (Context.admits_of_verdict verdict).standsIn
          have turned := @Context.Flat.afterToken context comes.flat token standsIn
          have after : lexeme.collectionAfter context.collection? = some withBreak :=
            turned.2.symm.trans inside
          rw [last]
          cases lexeme with
          | collectionOpen opening =>
              obtain ⟨bracket, inner, taken, whole, opens, read, left⟩ :=
                Context.exists_bracket_of_verdict verdict
              have remains := comes.remains
              rw [whole] at remains
              rw [left]
              exact ⟨_, token, opening, [], rfl,
                ⟨rfl, bracket, inner, remains, opens, (Collection.of_readOpening read).1⟩,
                Option.some.inj after, Collection.fills_opening style read⟩
          | member member =>
              obtain ⟨before, opener, opening, members, tokens, opens, same, fills⟩ :=
                inductionHypothesis after
              refine ⟨before, opener, opening, members ++ [token], ?_, opens, same,
                fills.member joinable after verdict rfl⟩
              rw [tokens, List.append_assoc, List.cons_append]
          | collectionClose closing => cases after
          | _ =>
              have within : context.collection? = some withBreak := after
              rw [within] at standsIn
              exact standsIn.elim

/-- A collection of a pattern is emitted as one bracket expression, whatever its members are,
if the classes of the options can stand there: behind the line break that it may accept come an
opening bracket, a body in which nothing nests or combines sets, and the bracket that closes it.
A caret comes first in the body just if one stands behind the bracket in the pattern. -/
theorem flat_collection (joinable : style.options.Joinable) {earlier later : List Token}
    {closer : Token} (tokens : (ofPattern level pattern).tokens = earlier ++ closer :: later)
    (closes : closer.kind = .collectionClose) :
    ∃ before opener members withBreak bracket inner body,
      earlier = before ++ opener :: members ∧
        (Tree.collection opener members closer).Kinded ∧
          Remains pattern opener.position (bracket ++ inner) ∧
            Collection.Bracket withBreak bracket ∧
              ((Tree.collection opener members closer).text style).toList =
                (if withBreak then ("(?:" ++ style.options.newLine ++ "|").toList else []) ++
                  '[' :: (body ++ ']' :: (if withBreak then [')'] else [])) ∧
                Flat body ∧ (body.head? = some '^' ↔ inner.head? = some '^') := by
  obtain ⟨items, context, char, text, extra, comes, read, verdict, _⟩ :=
    exists_reaches_token tokens
  obtain ⟨withBreak, closing⟩ : ∃ withBreak, closer.lexeme = .collectionClose withBreak := by
    rcases closer with ⟨_ | _, _, _, _⟩ <;> cases closes
    exact ⟨_, rfl⟩
  have inside : context.collection? = some withBreak := by
    rw [closing] at verdict
    obtain ⟨_, _, innermost⟩ := Context.enclosing_of_closes verdict rfl
    rw [Context.collection?, innermost]
  obtain ⟨before, opener, opening, members, row, opens, rfl, fills⟩ :=
    comes.exists_fills joinable inside
  obtain ⟨bracket, inner, remains, spelled, caret⟩ := opens.exists_bracket
  have opened : opener.kind = .collectionOpen := by rw [Token.kind, opens.lexeme, Lexeme.kind]
  exact ⟨before, opener, members, opening.withBreak, bracket, inner,
    opening.inner style members, read.symm.trans row, ⟨opened, fills.kind, closes⟩, remains,
    spelled, Collection.toList_text_collection opens.lexeme closing members, fills.flat,
    fills.caret.trans caret⟩

/-- Dashes in a row, a class of the options, two ampersands and a tilde stand one behind another
between the brackets, and a caret that the pattern has behind its bracket comes first. -/
theorem flat_collection_dashes :
    let style : Style := { options := {} }
    let pattern := "\\_[^---[:ident:]&&\\-~]"
    let tokens := (ofPattern .magic pattern).tokens
    let closer : Token :=
      { lexeme := .collectionClose true, raw := "]", position := 21, magicness := .magic }
    style.options.Joinable ∧ tokens = tokens.dropLast ++ [closer] ∧
      convertText style.options pattern =
        .ok "(?:\\n|[^\\r\\n-\\--A-Za-z_\\xC0-\\xFF0-9\\&\\&\\-\\~])" ∧
        ∃ before opener members, ∃ withBreak : Bool, ∃ body,
          tokens.dropLast = before ++ opener :: members ∧
            (Tree.collection opener members closer).Kinded ∧
              ((Tree.collection opener members closer).text style).toList =
                (if withBreak then ("(?:" ++ style.options.newLine ++ "|").toList else []) ++
                  '[' :: (body ++ ']' :: (if withBreak then [')'] else [])) ∧
                Flat body := by
  intro style pattern tokens closer
  have joinable : style.options.Joinable := Options.joinable_default
  have row : tokens = tokens.dropLast ++ [closer] := by decide +kernel
  obtain ⟨before, opener, members, withBreak, _, _, body, earlier, kinded, _, _, text, flat, _⟩ :=
    flat_collection joinable row rfl
  exact ⟨joinable, row, by decide +kernel,
    ⟨before, opener, members, withBreak, body, earlier, kinded, text, flat⟩⟩

end Scan

end VimPattern
