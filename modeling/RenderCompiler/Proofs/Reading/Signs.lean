import RenderCompiler.Proofs.Reading.Derived
import RenderCompiler.Proofs.Reading.Source

set_option autoImplicit false

namespace RenderCompiler

namespace Reading

def Lexeme.isAccess : Lexeme → Bool
  | .mark text => accessMarks.contains text
  | _ => false

/-- The lexemes of source text as the grammar of scripts has them, where a negative number is one
lexeme. A minus in front of an access is none of these. -/
def joinSigns : List Lexeme → List Lexeme
  | first :: .number spelling :: rest =>
    if first = .mark "-" ∧ rest.head?.any Lexeme.isAccess = false then
      .number (String.ofList ('-' :: spelling.toList)) :: joinSigns rest
    else first :: joinSigns (.number spelling :: rest)
  | first :: rest => first :: joinSigns rest
  | [] => []

theorem joinSigns_cons {lexeme : Lexeme} (apart : lexeme ≠ .mark "-") (rest : List Lexeme) :
    joinSigns (lexeme :: rest) = lexeme :: joinSigns rest := by
  cases rest with
  | nil => rfl
  | cons second rest =>
    cases second with
    | number spelling => exact if_neg fun both => apart both.1
    | word | mark | string => rfl

section Numbers

variable {spelling : List Char} {rest : List Lexeme}

theorem minus_not_digit {text : List Char} (digits : ∀ c ∈ text, isDigit c = true) :
    '-' ∉ text :=
  fun member => absurd (digits '-' member) (by decide)

theorem minus_not_magnitude {magnitude : List Char} (isMagnitude : IsMagnitude magnitude) :
    '-' ∉ magnitude := by
  cases isMagnitude with
  | whole isWhole => exact minus_not_digit isWhole.digits
  | fraction isWhole digits =>
    simp [minus_not_digit isWhole.digits, minus_not_digit digits]

theorem joinSigns_numeral (isSpelling : IsSpelling spelling)
    (free : '-' ∈ spelling → rest.head?.any Lexeme.isAccess = false) :
    joinSigns (numeralLexemes spelling ++ rest) =
      .number (String.ofList spelling) :: joinSigns rest := by
  cases isSpelling with
  | plain isMagnitude =>
    rw [numeralLexemes_plain isMagnitude]
    exact joinSigns_cons (by rintro ⟨⟩) rest
  | negative isMagnitude =>
    have alone := free List.mem_cons_self
    simp [numeralLexemes, joinSigns, alone]

theorem minus_mem_joinSigns (isSpelling : IsSpelling spelling) (sign : '-' ∈ spelling)
    (accessed : rest.head?.any Lexeme.isAccess = true) :
    .mark "-" ∈ joinSigns (numeralLexemes spelling ++ rest) := by
  cases isSpelling with
  | plain isMagnitude => exact absurd sign (minus_not_magnitude isMagnitude)
  | negative isMagnitude => simp [numeralLexemes, joinSigns, accessed]

end Numbers

section Pieces

variable {alphabet : Alphabet} {pieces after : List Piece} {accesses : List Access}

theorem accessed_iff :
    (sourceLexemes after).head?.any Lexeme.isAccess = true ↔ Accessed after := by
  unfold sourceLexemes Accessed
  cases Piece.tokens after with
  | nil => simp
  | cons token tokens =>
    cases token with
    | word text => simp [Token.sourceLexemes, Token.lexeme, Lexeme.isAccess]
    | mark text => simp [Token.sourceLexemes, Token.lexeme, Lexeme.isAccess]
    | string value => simp [Token.sourceLexemes, Token.lexeme, Lexeme.isAccess]
    | number value =>
      rw [List.flatMap_cons, Token.sourceLexemes]
      unfold numeralLexemes
      split <;> simp [Lexeme.isAccess, accessMarks]

theorem joinSigns_token {token : Token} (fits : Fits alphabet (written (pieces ++ after)) token)
    (alone : ∀ value, token = .number value → ¬ Accessed (pieces ++ after)) :
    joinSigns (sourceLexemes (.token token :: pieces ++ after)) =
      token.lexeme :: joinSigns (sourceLexemes (pieces ++ after)) := by
  rw [List.cons_append, sourceLexemes_token]
  cases token with
  | word text => exact joinSigns_cons (by rintro ⟨⟩) _
  | string value => exact joinSigns_cons (by rintro ⟨⟩) _
  | mark text =>
    refine joinSigns_cons ?_ _
    rintro ⟨⟩
    exact absurd fits.1 (show "-" ∉ printedMarks by decide)
  | number value =>
    apply joinSigns_numeral (isSpelling_numberText fits.1)
    intro _
    rw [← Bool.not_eq_true, accessed_iff]
    exact alone value rfl

theorem Accounts.joinSigns_eq (accounts : Accounts alphabet after pieces accesses)
    (plain : ∀ access ∈ accesses, '-' ∉ numberText access.value) :
    joinSigns (sourceLexemes (pieces ++ after)) =
      lexemes pieces ++ joinSigns (sourceLexemes after) := by
  induction accounts with
  | nil => rfl
  | blank _ _ ih => exact ih plain
  | @token token pieces accesses fits alone _ ih =>
    rw [joinSigns_token fits alone, ih plain]
    rfl
  | @number value mark pieces more accesses finite access next _ ih =>
    have unsigned : '-' ∉ numberText value := plain _ List.mem_cons_self
    have later := ih fun other member => plain other (List.mem_cons_of_mem _ member)
    rw [List.cons_append, sourceLexemes_token, Token.sourceLexemes,
      joinSigns_numeral (isSpelling_numberText finite) fun sign => absurd sign unsigned, later]
    rfl

theorem Accounts.minus_mem (accounts : Accounts alphabet after pieces accesses)
    (signed : ∃ access ∈ accesses, '-' ∈ numberText access.value) :
    .mark "-" ∈ joinSigns (sourceLexemes (pieces ++ after)) := by
  induction accounts with
  | nil =>
    obtain ⟨access, none, -⟩ := signed
    cases none
  | blank _ _ ih => exact ih signed
  | token fits alone _ ih =>
    rw [joinSigns_token fits alone]
    exact List.mem_cons_of_mem _ (ih signed)
  | @number value mark pieces more accesses finite access next _ ih =>
    have isSpelling := isSpelling_numberText finite
    rw [List.cons_append, sourceLexemes_token]
    by_cases sign : '-' ∈ numberText value
    · apply minus_mem_joinSigns isSpelling sign
      rw [accessed_iff, next]
      exact ⟨mark, access, rfl⟩
    · obtain ⟨other, member, minus⟩ := signed
      rcases List.mem_cons.mp member with rfl | among
      · exact absurd minus sign
      · rw [Token.sourceLexemes, joinSigns_numeral isSpelling fun own => absurd own sign]
        exact List.mem_cons_of_mem _ (ih ⟨other, among, minus⟩)

end Pieces

theorem DerivesNames.unsigned {tokens : List Lexeme} {names : List String}
    (derives : DerivesNames tokens names) : .mark "-" ∉ tokens := by
  induction derives with
  | nil => simp
  | last free => simp
  | more free _ ih => simp [ih]

mutual

theorem Derives.unsigned {tier : Tier} {tokens : List Lexeme} {tree : Tree}
    (derives : Derives tier tokens tree) : .mark "-" ∉ tokens := by
  match derives with
  | .chain tight => exact tight.unsigned
  | .conditional tested chosen otherwise =>
    simp [tested.unsigned, chosen.unsigned, otherwise.unsigned]
  | .or before after | .strictEqual before after => simp [before.unsigned, after.unsigned]
  | .not negated => simp [negated.unsigned]
  | .member _ start | .quoted _ start => simp [start.unsigned]
  | .call start given => simp [start.unsigned, given.unsigned]
  | .identifier _ | .string _ | .number _ | .yes | .no | .null => simp
  | .parenthesized inner => simp [inner.unsigned]
  | .array items => simp [items.unsigned]
  | .object entries => simp [entries.unsigned]
  | .function names block => simp [names.unsigned, block.unsigned]

theorem DerivesItems.unsigned {tokens : List Lexeme} {trees : List Tree}
    (derives : DerivesItems tokens trees) : .mark "-" ∉ tokens := by
  match derives with
  | .nil => simp
  | .last item => exact item.unsigned
  | .more item later => simp [item.unsigned, later.unsigned]

theorem DerivesFields.unsigned {tokens : List Lexeme} {fields : List (String × Tree)}
    (derives : DerivesFields tokens fields) : .mark "-" ∉ tokens := by
  match derives with
  | .nil => simp
  | .last named value => rcases named with rfl | rfl <;> simp [value.unsigned]
  | .more named value later =>
    rcases named with rfl | rfl <;> simp [value.unsigned, later.unsigned]

theorem DerivesBody.unsigned {tokens : List Lexeme} {body : List Clause}
    (derives : DerivesBody tokens body) : .mark "-" ∉ tokens := by
  match derives with
  | .nil => simp
  | .returns returned later => simp [returned.unsigned, later.unsigned]
  | .importDefault _ _ later => simp [later.unsigned]
  | .exportDefaultFunction _ names block later =>
    simp [names.unsigned, block.unsigned, later.unsigned]

end

section Printed

def namedParts (alphabet : Alphabet) : Parts :=
  ⟨alphabet.IsName, fun value => value.isFinite = true, fun _ => True⟩

theorem accounts_print {alphabet : Alphabet} {e : Expr} (named : e.MadeOf (namedParts alphabet)) :
    Accounts alphabet [] (e.placed Level.assignment e.pieces) e.numberAccesses := by
  have spelled : SpelledParts alphabet (namedParts alphabet) :=
    ⟨fun _ name => name, fun _ finite => finite⟩
  exact (sits_pieces spelled e named).placed Level.assignment settles_end

theorem lexes_print_iff {alphabet : Alphabet} {e : Expr}
    (named : e.MadeOf (namedParts alphabet)) :
    Lexes alphabet e.print.toList (sourceLexemes (e.placed Level.assignment e.pieces)) ↔
      ∀ access ∈ e.numberAccesses, access.mark = "." → '.' ∈ numberText access.value := by
  have text : e.print.toList = written (e.placed Level.assignment e.pieces) :=
    String.toList_ofList
  have both : Lexes alphabet (written (e.placed Level.assignment e.pieces ++ []))
      (sourceLexemes (e.placed Level.assignment e.pieces) ++ []) ↔ _ :=
    (accounts_print named).lexes_iff
  rw [List.append_nil, List.append_nil, ← text] at both
  exact both.trans (and_iff_left .nil)

/-- Source text gives back the tokens printed for an expression, and nothing else, just if no number
that is spelled without a point has a member read with one. Its signs leave it the tree of the
expression, and no other, just if no negative number is an object or a callee. -/
theorem source_print_iff (alphabet : Alphabet) (e : Expr)
    (named : e.MadeOf (namedParts alphabet)) (spoken : e.MadeOf spokenParts) :
    ((∀ found, Lexes alphabet e.print.toList found ↔
        found = sourceLexemes (e.placed Level.assignment e.pieces)) ↔
      ∀ access ∈ e.numberAccesses, access.mark = "." → '.' ∈ numberText access.value) ∧
    ((∀ tree, Derives .conditional
        (joinSigns (sourceLexemes (e.placed Level.assignment e.pieces))) tree ↔ tree = e.tree) ↔
      ∀ access ∈ e.numberAccesses, '-' ∉ numberText access.value) := by
  have accounts := accounts_print named
  constructor
  · rw [← lexes_print_iff named]
    exact ⟨fun exactly => (exactly _).mpr rfl, lexes_iff_of_lexes⟩
  · constructor
    · intro exactly access member sign
      have own : Derives .conditional _ e.tree := (exactly e.tree).mpr rfl
      have minus := accounts.minus_mem ⟨access, member, sign⟩
      rw [List.append_nil] at minus
      exact own.unsigned minus
    · intro plain tree
      have joined := accounts.joinSigns_eq plain
      have own := derives_printed spoken
      rw [List.append_nil] at joined
      rw [joined, sourceLexemes, Piece.tokens, List.filterMap_nil, List.flatMap_nil, joinSigns,
        List.append_nil]
      exact ⟨fun derives => derives.unique own, fun same => same ▸ own⟩

def numberObjects : Expr :=
  .call (.member (.number (.ofRatio false 1 2)) "toFixed")
    [.not (.number (.ofInt (-2))), .member (.identifier "a") "b c"]

theorem numberObjects_source :
    numberObjects.print = "0.5.toFixed(!-2, a['b c'])" ∧
    (∀ found, Lexes .ascii numberObjects.print.toList found ↔
      found = [.number "0.5", .mark ".", .word "toFixed", .mark "(", .mark "!", .mark "-",
        .number "2", .mark ",", .word "a", .mark "[", .string "b c", .mark "]", .mark ")"]) ∧
    ∀ tree, Derives .conditional
      [.number "0.5", .mark ".", .word "toFixed", .mark "(", .mark "!", .number "-2", .mark ",",
        .word "a", .mark "[", .string "b c", .mark "]", .mark ")"] tree ↔
      tree = numberObjects.tree := by
  have named : numberObjects.MadeOf (namedParts .ascii) := by
    have name : Alphabet.ascii.IsName "a" := isName_of_isBareName rfl
    simp only [numberObjects, Expr.MadeOf, Expr.AllMadeOf, namedParts, name]
    decide
  have spoken : numberObjects.MadeOf spokenParts := by
    simp only [numberObjects, Expr.MadeOf, Expr.AllMadeOf, spokenParts]
    decide
  have source := source_print_iff .ascii numberObjects named spoken
  exact ⟨by decide, source.1.mpr (by decide), source.2.mpr (by decide)⟩

-- The point would be the number's, and then a name would follow it.
def numberMember : Expr := .member (.number (.ofNat 1)) "id"

-- The minus would be that of what is read of the number.
def signedMember : Expr := .member (.number (.ofInt (-1))) "x y"

theorem numberMember_unread :
    (numberMember.MadeOf (namedParts .ascii) ∧ numberMember.MadeOf spokenParts ∧
      numberMember.print = "1.id" ∧
      ∀ found, ¬ Lexes .ascii numberMember.print.toList found) ∧
    (signedMember.MadeOf (namedParts .ascii) ∧ signedMember.MadeOf spokenParts ∧
      signedMember.print = "-1['x y']" ∧
      Lexes .ascii signedMember.print.toList
        [.mark "-", .number "1", .mark "[", .string "x y", .mark "]"] ∧
      ∀ tree, ¬ Derives .conditional
        (joinSigns [.mark "-", .number "1", .mark "[", .string "x y", .mark "]"]) tree) := by
  have parts : (numberMember.MadeOf (namedParts .ascii) ∧ numberMember.MadeOf spokenParts) ∧
      signedMember.MadeOf (namedParts .ascii) ∧ signedMember.MadeOf spokenParts := by
    simp only [numberMember, signedMember, Expr.MadeOf, namedParts, spokenParts]
    decide
  refine ⟨⟨parts.1.1, parts.1.2, by decide, ?_⟩, parts.2.1, parts.2.2, by decide, ?_, ?_⟩
  · have text : numberMember.print.toList = ['1', '.', 'i', 'd'] := by decide
    have unread : sourceLexeme? .ascii ['1', '.', 'i', 'd'] = none := by decide
    rw [text]
    intro found lexes
    cases lexes with
    | blank blank => exact absurd blank (by decide)
    | lexeme _ read =>
      rw [unread] at read
      cases read
  · exact (lexes_print_iff parts.2.1).mpr (by decide)
  · intro tree derives
    exact derives.unsigned (by decide)

end Printed

end Reading

end RenderCompiler
