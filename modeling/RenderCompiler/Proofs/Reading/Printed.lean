import RenderCompiler.Proofs.Reading.Accesses
import RenderCompiler.Proofs.Script.Parts
import RenderCompiler.Script.Printer

set_option autoImplicit false

namespace RenderCompiler

namespace Reading

def Opens : Token → Prop
  | .mark text => text ∈ ["(", "[", "\x7b", "!"]
  | _ => True

def Opened (pieces : List Piece) : Prop := ∃ token more, pieces = .token token :: more ∧ Opens token

theorem opened_append {pieces : List Piece} (opened : Opened pieces) (more : List Piece) :
    Opened (pieces ++ more) := by
  obtain ⟨token, others, rfl, opens⟩ := opened
  exact ⟨token, others ++ more, rfl, opens⟩

theorem opened_word (text : String) (more : List Piece) : Opened (.word text :: more) :=
  ⟨_, _, rfl, trivial⟩

theorem opened_string (value : String) (more : List Piece) : Opened (.string value :: more) :=
  ⟨_, _, rfl, trivial⟩

theorem opened_mark {mark : String} (opens : mark ∈ ["(", "[", "\x7b", "!"]) (more : List Piece) :
    Opened (.mark mark :: more) :=
  ⟨_, _, rfl, opens⟩

theorem opened_parenthesized (pieces : List Piece) : Opened (parenthesized pieces) :=
  opened_mark (by decide) _

theorem opened_placed {e : Expr} (opened : Opened e.pieces) (least : Nat) :
    Opened (e.placed least e.pieces) := by
  unfold Expr.placed
  split
  · exact opened_parenthesized _
  · exact opened

theorem opened_placedAsObject {e : Expr} (opened : Opened e.pieces) :
    Opened (e.placedAsObject e.pieces) := by
  unfold Expr.placedAsObject
  split
  · exact opened_parenthesized _
  · exact opened_placed opened _

theorem opened_pieces (e : Expr) : Opened e.pieces := by
  cases e with
  | identifier name => exact opened_word _ _
  | string value => exact opened_string value _
  | number value => exact ⟨_, _, rfl, trivial⟩
  | boolean value => cases value <;> exact opened_word _ _
  | null => exact opened_word _ _
  | member object property =>
    rw [Expr.pieces]
    exact opened_append (opened_placedAsObject (opened_pieces object)) _
  | call callee arguments =>
    rw [Expr.pieces, List.append_assoc]
    exact opened_append (opened_placedAsObject (opened_pieces callee)) _
  | array elements => exact opened_mark (by decide) _
  | object properties => cases properties <;> exact opened_mark (by decide) _
  | conditional test consequent alternate =>
    rw [Expr.pieces, List.append_assoc]
    exact opened_append (opened_placed (opened_pieces test) _) _
  | not argument => exact opened_mark (by decide) _
  | strictEqual left right =>
    rw [Expr.pieces]
    exact opened_append (opened_placed (opened_pieces left) _) _
  | or left right =>
    rw [Expr.pieces]
    exact opened_append (opened_placed (opened_pieces left) _) _
  | function params body => exact opened_word _ _

variable {alphabet : Alphabet} {after : List Piece}

theorem Accounts.opened {pieces : List Piece} {accesses : List Access} (opened : Opened pieces)
    (accounts : Accounts alphabet after pieces accesses) :
    ∃ c more, written (pieces ++ after) = c :: more ∧ isBlank c = false ∧ c ≠ '=' := by
  obtain ⟨token, others, rfl, opens⟩ := opened
  have head : ∃ c more, token.text = c :: more ∧ isBlank c = false ∧ c ≠ '=' := by
    cases accounts with
    | token fits =>
      obtain ⟨c, more, chars, blank, equality⟩ := head_of_fits fits
      refine ⟨c, more, chars, blank, fun same => ?_⟩
      rw [equality same] at opens
      exact absurd opens (show "===" ∉ ["(", "[", "\x7b", "!"] by decide)
    | number finite => exact head_of_numberText finite
  obtain ⟨c, more, chars, blank, apart⟩ := head
  refine ⟨c, more ++ written (others ++ after), ?_, blank, apart⟩
  rw [List.cons_append, written_cons, Piece.text, chars]
  rfl

variable (alphabet) in
structure Sits (e : Expr) : Prop where
  settled : ∀ after, Settles alphabet after → Accounts alphabet after e.pieces e.numberAccesses
  accessed : Level.call ≤ e.level → ∀ mark ∈ accessMarks, ∀ after,
    Accounts alphabet (.mark mark :: after) e.pieces (e.numberAccesses ++ e.accessedBy mark)

theorem sits_of_tight {e : Expr} (plain : ∀ mark, e.accessedBy mark = [])
    (each : ∀ after, Ends alphabet (written after) →
      Accounts alphabet after e.pieces e.numberAccesses) : Sits alphabet e where
  settled := fun after settles => each after settles.toEnds
  accessed := by
    intro _ mark access after
    rw [plain, List.append_nil]
    exact each _ (ends_access access)

theorem sits_of_loose {e : Expr} (loose : e.level < Level.call)
    (each : ∀ after, Settles alphabet after →
      Accounts alphabet after e.pieces e.numberAccesses) : Sits alphabet e where
  settled := each
  accessed := fun tight => absurd loose (Nat.not_lt.mpr tight)

section Places

variable {e : Expr} (sits : Sits alphabet e)

include sits

theorem Sits.parenthesized :
    Accounts alphabet after (parenthesized e.pieces) e.numberAccesses := by
  have inside := sits.settled (.mark ")" :: after) (settles_mark (by decide))
  have closing : Accounts alphabet after [.mark ")"] [] := .plain (by decide) .nil
  exact .plain (by decide) (inside.close closing)

theorem Sits.placed (least : Nat) (settles : Settles alphabet after) :
    Accounts alphabet after (e.placed least e.pieces) e.numberAccesses := by
  by_cases loose : e.level < least
  · rw [Expr.placed, if_pos loose]
    exact sits.parenthesized
  · rw [Expr.placed, if_neg loose]
    exact sits.settled after settles

theorem Sits.placedAsObject {mark : String} (access : mark ∈ accessMarks) :
    Accounts alphabet (.mark mark :: after) (e.placedAsObject e.pieces)
      (e.numberAccesses ++ e.accessedBy mark) := by
  unfold Expr.placedAsObject
  split
  next =>
    change Accounts alphabet _ _ (_ ++ [])
    rw [List.append_nil]
    exact sits.parenthesized
  next =>
    by_cases loose : e.level < Level.call
    · have plain : e.accessedBy mark = [] := by
        cases e with
        | number value => exact absurd loose (show ¬ Level.primary < Level.call by decide)
        | _ => rfl
      rw [Expr.placed, if_pos loose, plain, List.append_nil]
      exact sits.parenthesized
    · rw [Expr.placed, if_neg loose]
      exact sits.accessed (Nat.not_lt.mp loose) mark access after

end Places

theorem accounts_comma {item others : List Piece} {own more : List Access}
    (each : ∀ after, Settles alphabet after → Accounts alphabet after item own)
    (later : Accounts alphabet after others more) :
    Accounts alphabet after (item ++ .mark "," :: .space :: others) (own ++ more) :=
  (each _ (settles_mark (by decide))).append (.plain (by decide) (.space later))

theorem accounts_enclosed {opening closing : String} {items : List Piece} {own : List Access}
    (begins : opening ∈ plainMarks) (ends : closing ∈ [")", "]"])
    (each : ∀ after, Settles alphabet after → Accounts alphabet after items own) :
    Accounts alphabet after (.mark opening :: items ++ [.mark closing]) own := by
  have ended : closing ∈ plainMarks ∧ closing ∈ [")", "]", ",", ";"] := by
    simp only [List.mem_cons, List.not_mem_nil, or_false] at ends
    rcases ends with rfl | rfl <;> decide
  have inside := each (.mark closing :: after) (settles_mark ended.2)
  exact .plain begins (inside.close (.plain ended.1 .nil))

theorem accounts_names {names : List String} (named : ∀ name ∈ names, alphabet.IsName name)
    (settles : Settles alphabet after) :
    Accounts alphabet after (separated (names.map fun name => [.word name])) [] := by
  match names with
  | [] => exact .nil
  | [name] => exact .word (named name List.mem_cons_self) settles.toEnds .nil
  | name :: second :: others =>
    have later := accounts_names (fun other member => named other (List.mem_cons_of_mem _ member))
      settles
    have first : ∀ after, Settles alphabet after → Accounts alphabet after [.word name] [] :=
      fun _ settles => .word (named name List.mem_cons_self) settles.toEnds .nil
    exact accounts_comma first later

theorem accounts_params {params : List String}
    (named : ∀ param ∈ params, alphabet.IsName param) :
    Accounts alphabet after (paramPieces params) [] :=
  accounts_enclosed (by decide) (by decide) fun _ settles => accounts_names named settles

theorem accounts_key {key : String} {pieces : List Piece} {accesses : List Access}
    (later : Accounts alphabet after pieces accesses) :
    Accounts alphabet after (keyPiece key :: .mark ":" :: .space :: pieces) accesses := by
  have rest : Accounts alphabet after (.mark ":" :: .space :: pieces) accesses :=
    .plain (by decide) (.space later)
  by_cases bare : isBareName key = true
  · rw [keyPiece, if_pos bare]
    exact .word (isName_of_isBareName bare) (ends_of_ascii (by decide) rfl rfl) rest
  · rw [keyPiece, if_neg bare]
    exact .string key rest

theorem point_apart {c : Char} (start : alphabet.start c = true) : extendsMark "." c = false := by
  have point : c ≠ '.' := ne_of_start start (by decide) rfl
  simp [extendsMark, point, not_digit_of_start start]

theorem accounts_member {property : String} (ends : Ends alphabet (written after)) :
    ∃ more, memberPieces property = .mark (memberMark property) :: more ∧
      Accounts alphabet after (.mark (memberMark property) :: more) [] := by
  by_cases bare : isBareName property = true
  · rw [memberPieces, memberMark, if_pos bare, if_pos bare]
    have name : alphabet.IsName property := isName_of_isBareName bare
    refine ⟨_, rfl, .mark ⟨by decide, ?_⟩ (.word name ends .nil)⟩
    obtain ⟨c, more, chars, start, -⟩ := name
    have front : (written ([.word property] ++ after)).head? = some c := by
      simp [Piece.word, Piece.text, Token.text, chars]
    rw [front]
    rintro first ⟨⟩
    exact point_apart start
  · rw [memberPieces, memberMark, if_neg bare, if_neg bare]
    exact ⟨_, rfl, .plain (by decide) (.string property (.plain (by decide) .nil))⟩

theorem memberMark_access (property : String) : memberMark property ∈ accessMarks := by
  unfold memberMark
  split <;> decide

theorem accounts_indentation (level : Nat) : Accounts alphabet after (indentation level) [] := by
  cases level with
  | zero => exact .nil
  | succ level =>
    refine .blank (fun c member => ?_) .nil
    rw [String.toList_ofList] at member
    rw [List.eq_of_mem_replicate member]
    decide

theorem accounts_operands {first others : List Piece} {mark : String} {own more : List Access}
    (between : mark ∈ ["?", ":", "===", "||"])
    (before : ∀ after, Settles alphabet after → Accounts alphabet after first own)
    (behind : Accounts alphabet after others more) :
    Accounts alphabet after (first ++ .space :: .mark mark :: .space :: others) (own ++ more) := by
  have facts : mark ∈ printedMarks ∧ extendsMark mark ' ' = false ∧
      mark ∈ ["?", ":", "===", "||", "\x7d"] := by
    simp only [List.mem_cons, List.not_mem_nil, or_false] at between
    rcases between with rfl | rfl | rfl | rfl <;> decide
  have fits : Fits alphabet (written (.space :: others ++ after)) (.mark mark) :=
    ⟨facts.1, by rintro c ⟨⟩; exact facts.2.1⟩
  exact (before _ (settles_space facts.2.2)).append (.space (.mark fits (.space behind)))

theorem accounts_before {text : String} {pieces : List Piece} {accesses : List Access}
    (name : alphabet.IsName text) (opened : Opened pieces)
    (later : Accounts alphabet after pieces accesses) :
    Accounts alphabet after (.word text :: .space :: pieces) accesses := by
  obtain ⟨c, more, chars, blank, -⟩ := later.opened opened
  refine .word name ?_ (.space later)
  rw [List.cons_append, written_cons, chars]
  exact ends_of_space blank

theorem accounts_brace {pieces : List Piece} {accesses : List Access}
    (inside : Accounts alphabet after pieces accesses) :
    Accounts alphabet after (.space :: .mark "\x7b" :: pieces) accesses :=
  .space (.plain (by decide) inside)

theorem fits_not {c : Char} {rest : List Char} (apart : c ≠ '=') :
    Fits alphabet (c :: rest) (.mark "!") := by
  refine ⟨by decide, ?_⟩
  rintro first ⟨⟩
  simpa [extendsMark] using apart

variable (alphabet) in
structure SpelledParts (parts : Parts) : Prop where
  name : ∀ name, parts.name name → alphabet.IsName name
  number : ∀ value, parts.number value → value.isFinite = true

section Induction

variable {parts : Parts}

mutual

theorem sits_pieces (spelled : SpelledParts alphabet parts) (e : Expr) (fine : e.MadeOf parts) :
    Sits alphabet e := by
  cases e with
  | identifier name =>
    exact sits_of_tight (fun _ => rfl) fun _ ends => .word (spelled.name name fine) ends .nil
  | string value => exact sits_of_tight (fun _ => rfl) fun _ _ => .string value .nil
  | number value =>
    have finite := spelled.number value fine
    exact ⟨fun _ settles => .settled finite settles,
      fun _ _ access _ => .number finite access rfl .nil⟩
  | boolean value =>
    apply sits_of_tight fun _ => rfl
    intro _ ends
    cases value <;> exact .word (isName_of_isBareName rfl) ends .nil
  | null =>
    exact sits_of_tight (fun _ => rfl) fun _ ends => .word (isName_of_isBareName rfl) ends .nil
  | member object property =>
    apply sits_of_tight fun _ => rfl
    intro after ends
    obtain ⟨more, shape, access⟩ := accounts_member ends
    rw [Expr.pieces, shape]
    have start := sits_pieces spelled object fine.2
    exact (start.placedAsObject (memberMark_access property)).close access
  | call callee arguments =>
    apply sits_of_tight fun _ => rfl
    intro after _
    have given := accounts_items spelled arguments fine.2
    rw [Expr.pieces, List.append_assoc]
    exact ((sits_pieces spelled callee fine.1).placedAsObject (by decide)).append
      (accounts_enclosed (by decide) (by decide) given)
  | array elements =>
    exact sits_of_tight (fun _ => rfl) fun _ _ =>
      accounts_enclosed (by decide) (by decide) (accounts_items spelled elements fine)
  | object properties =>
    apply sits_of_tight fun _ => rfl
    intro after _
    have fields := accounts_fields spelled properties fine
    cases properties with
    | nil => exact .plain (by decide) (.plain (by decide) .nil)
    | cons property properties =>
      have closing : Accounts alphabet after [.space, .mark "\x7d"] [] :=
        .space (.plain (by decide) .nil)
      have inside := fields (.space :: .mark "\x7d" :: after) (settles_space (by decide))
      rw [Expr.pieces]
      · exact .plain (by decide) (.space (inside.close closing))
      · exact fun none => nomatch none
  | conditional test consequent alternate =>
    refine sits_of_loose (show Level.assignment < Level.call by decide) fun after settles => ?_
    have tested := sits_pieces spelled test fine.1
    have chosen := sits_pieces spelled consequent fine.2.1
    have other := (sits_pieces spelled alternate fine.2.2).placed Level.assignment settles
    rw [Expr.pieces, List.append_assoc]
    exact accounts_operands (by decide) (fun _ => tested.placed _)
      (accounts_operands (by decide) (fun _ => chosen.placed _) other)
  | not argument =>
    refine sits_of_loose (show Level.unary < Level.call by decide) fun after settles => ?_
    have below := (sits_pieces spelled argument fine).placed Level.unary settles
    obtain ⟨c, more, chars, -, apart⟩ :=
      below.opened (opened_placed (opened_pieces argument) Level.unary)
    refine .mark ?_ below
    rw [chars]
    exact fits_not apart
  | strictEqual left right =>
    refine sits_of_loose (show Level.equality < Level.call by decide) fun after settles => ?_
    exact accounts_operands (by decide) (fun _ => (sits_pieces spelled left fine.1).placed _)
      ((sits_pieces spelled right fine.2).placed _ settles)
  | or left right =>
    refine sits_of_loose (show Level.disjunction < Level.call by decide) fun after settles => ?_
    exact accounts_operands (by decide) (fun _ => (sits_pieces spelled left fine.1).placed _)
      ((sits_pieces spelled right fine.2).placed _ settles)
  | function params body =>
    apply sits_of_tight fun _ => rfl
    intro after _
    have named : ∀ param ∈ params, alphabet.IsName param :=
      fun param member => spelled.name param (fine.1 param member)
    have closing : Accounts alphabet after [.space, .mark "\x7d"] [] :=
      .space (.plain (by decide) .nil)
    have inside := (accounts_inline spelled body fine.2 _).close closing
    have opening := (accounts_params named).append (accounts_brace inside)
    rw [Expr.pieces, List.append_assoc]
    exact accounts_before (isName_of_isBareName rfl) (opened_mark (by decide) _) opening

theorem accounts_items (spelled : SpelledParts alphabet parts) (es : List Expr)
    (fine : Expr.AllMadeOf parts es) :
    ∀ after, Settles alphabet after →
      Accounts alphabet after (separated (exprsPieces es)) (Expr.listNumberAccesses es) := by
  intro after settles
  match es, fine with
  | [], _ => exact .nil
  | [e], fine =>
    rw [Expr.listNumberAccesses, Expr.listNumberAccesses, List.append_nil]
    exact (sits_pieces spelled e fine.1).placed Level.assignment settles
  | e :: second :: es, fine =>
    have later := accounts_items spelled (second :: es) fine.2 after settles
    exact accounts_comma (fun _ => (sits_pieces spelled e fine.1).placed Level.assignment) later

theorem accounts_fields (spelled : SpelledParts alphabet parts)
    (properties : List (String × Expr)) (fine : Expr.PropertiesMadeOf parts properties) :
    ∀ after, Settles alphabet after → Accounts alphabet after
      (separated (propertiesPieces properties)) (Expr.fieldNumberAccesses properties) := by
  intro after settles
  match properties, fine with
  | [], _ => exact .nil
  | [(key, value)], fine =>
    rw [Expr.fieldNumberAccesses, Expr.fieldNumberAccesses, List.append_nil]
    exact accounts_key ((sits_pieces spelled value fine.1).placed Level.assignment settles)
  | (key, value) :: second :: properties, fine =>
    have later := accounts_fields spelled (second :: properties) fine.2 after settles
    have first := sits_pieces spelled value fine.1
    exact accounts_comma (fun _ settles => accounts_key (first.placed Level.assignment settles))
      later

theorem accounts_statement (spelled : SpelledParts alphabet parts) (s : Stmt)
    (fine : s.MadeOf parts) (level : Nat) (after : List Piece) :
    Accounts alphabet after (s.pieces level) s.numberAccesses := by
  have indented {after : List Piece} : Accounts alphabet after (indentation level) [] :=
    accounts_indentation level
  cases s with
  | returns argument =>
    have settles : Settles alphabet (.mark ";" :: after) := settles_mark (by decide)
    have below := (sits_pieces spelled argument fine).placed Level.assignment settles
    have opened := opened_placed (opened_pieces argument) Level.assignment
    have ended := below.close (.plain (by decide) .nil)
    rw [Stmt.pieces, List.append_assoc]
    exact indented.append
      (accounts_before (isName_of_isBareName rfl) (opened_append opened _) ended)
  | importDefault binding source =>
    have ended : Accounts alphabet after [.string source, .mark ";"] [] :=
      .string source (.plain (by decide) .nil)
    have origin : Accounts alphabet after (.word "from" :: .space :: _) [] :=
      accounts_before (isName_of_isBareName rfl) (opened_string source _) ended
    have bound := accounts_before (spelled.name binding fine) (opened_word _ _) origin
    exact indented.append (accounts_before (isName_of_isBareName rfl) (opened_word _ _) bound)
  | exportDefaultFunction name params body =>
    have named : ∀ param ∈ params, alphabet.IsName param :=
      fun param member => spelled.name param (fine.2.1 param member)
    have closing : Accounts alphabet after (indentation level ++ [.mark "\x7d"]) [] :=
      indented.append (.plain (by decide) .nil)
    have inside := (accounts_block spelled body fine.2.2 (level + 1) _).close closing
    have block := (accounts_params named).append (accounts_brace inside.newline)
    have titled : Accounts alphabet after (.word name :: _) _ :=
      .word (spelled.name name fine.1) (ends_of_ascii (by decide) rfl rfl) block
    have declared : Accounts alphabet after (.word "function" :: .space :: _) _ :=
      accounts_before (isName_of_isBareName rfl) (opened_word _ _) titled
    have usual : Accounts alphabet after (.word "default" :: .space :: _) _ :=
      accounts_before (isName_of_isBareName rfl) (opened_word _ _) declared
    have exported : Accounts alphabet after (.word "export" :: .space :: _) _ :=
      accounts_before (isName_of_isBareName rfl) (opened_word _ _) usual
    simp only [Stmt.pieces, List.append_assoc, List.cons_append, List.nil_append]
    exact indented.append exported

theorem accounts_block (spelled : SpelledParts alphabet parts) (body : List Stmt)
    (fine : Stmt.AllMadeOf parts body) (level : Nat) (after : List Piece) :
    Accounts alphabet after (blockPieces level body) (Stmt.listNumberAccesses body) := by
  cases body with
  | nil => exact .nil
  | cons s body =>
    have later := accounts_block spelled body fine.2 level after
    exact (accounts_statement spelled s fine.1 level _).append later.newline

theorem accounts_inline (spelled : SpelledParts alphabet parts) (body : List Stmt)
    (fine : Stmt.AllMadeOf parts body) (after : List Piece) :
    Accounts alphabet after (inlinePieces body) (Stmt.listNumberAccesses body) := by
  cases body with
  | nil => exact .nil
  | cons s body =>
    have later := accounts_inline spelled body fine.2 after
    exact .space ((accounts_statement spelled s fine.1 0 _).append later)

end

end Induction

def legibleParts (alphabet : Alphabet) : Parts :=
  ⟨alphabet.IsName, fun value => value.isFinite = true, fun object => ¬ object.IsNumber⟩

def Calls (accesses : List Access) : Prop := ∀ access ∈ accesses, access.mark = "("

theorem calls_append {own more : List Access} : Calls (own ++ more) ↔ Calls own ∧ Calls more :=
  List.forall_mem_append

theorem calls_callee (callee : Expr) : Calls (callee.accessedBy "(") := by
  cases callee with
  | number value => exact List.forall_mem_singleton.mpr rfl
  | _ => exact fun access none => nomatch none

theorem accessedBy_of_apart {object : Expr} (apart : ¬ object.IsNumber) (mark : String) :
    object.accessedBy mark = [] := by
  cases object with
  | number value => exact absurd trivial apart
  | _ => rfl

mutual

theorem calls_expr (e : Expr) (fine : e.MadeOf (legibleParts alphabet)) :
    Calls e.numberAccesses := by
  cases e with
  | identifier | string | number | boolean | null => exact fun access none => nomatch none
  | member object property =>
    rw [Expr.numberAccesses, accessedBy_of_apart fine.1, List.append_nil]
    exact calls_expr object fine.2
  | call callee arguments =>
    simp only [Expr.numberAccesses, calls_append]
    exact ⟨⟨calls_expr callee fine.1, calls_callee callee⟩, calls_exprs arguments fine.2⟩
  | array elements => exact calls_exprs elements fine
  | object properties => exact calls_fields properties fine
  | conditional test consequent alternate =>
    simp only [Expr.numberAccesses, calls_append]
    exact ⟨calls_expr test fine.1, calls_expr consequent fine.2.1, calls_expr alternate fine.2.2⟩
  | not argument => exact calls_expr argument fine
  | strictEqual left right | or left right =>
    exact calls_append.mpr ⟨calls_expr left fine.1, calls_expr right fine.2⟩
  | function params body => exact calls_statements body fine.2

theorem calls_exprs (es : List Expr) (fine : Expr.AllMadeOf (legibleParts alphabet) es) :
    Calls (Expr.listNumberAccesses es) := by
  cases es with
  | nil => exact fun access none => nomatch none
  | cons e es => exact calls_append.mpr ⟨calls_expr e fine.1, calls_exprs es fine.2⟩

theorem calls_fields (properties : List (String × Expr))
    (fine : Expr.PropertiesMadeOf (legibleParts alphabet) properties) :
    Calls (Expr.fieldNumberAccesses properties) := by
  cases properties with
  | nil => exact fun access none => nomatch none
  | cons property properties =>
    exact calls_append.mpr ⟨calls_expr property.2 fine.1, calls_fields properties fine.2⟩

theorem calls_statement (s : Stmt) (fine : s.MadeOf (legibleParts alphabet)) :
    Calls s.numberAccesses := by
  cases s with
  | returns argument => exact calls_expr argument fine
  | importDefault binding source => exact fun access none => nomatch none
  | exportDefaultFunction name params body => exact calls_statements body fine.2.2

theorem calls_statements (body : List Stmt)
    (fine : Stmt.AllMadeOf (legibleParts alphabet) body) :
    Calls (Stmt.listNumberAccesses body) := by
  cases body with
  | nil => exact fun access none => nomatch none
  | cons s body => exact calls_append.mpr ⟨calls_statement s fine.1, calls_statements body fine.2⟩

end

theorem lex_print (script : Script) (fine : Stmt.AllMadeOf (legibleParts alphabet) script.body) :
    lex alphabet script.print.toList = some (lexemes script.pieces) := by
  have spelled : SpelledParts alphabet (legibleParts alphabet) :=
    ⟨fun _ name => name, fun _ finite => finite⟩
  have accounts : Accounts alphabet [] script.pieces (Stmt.listNumberAccesses script.body) :=
    accounts_block spelled script.body fine 0 []
  rw [Script.print, Piece.render, String.toList_ofList]
  refine lex_legible (accounts.legible fun access member => ?_)
  rw [calls_statements script.body fine access member]
  decide

end Reading

end RenderCompiler
