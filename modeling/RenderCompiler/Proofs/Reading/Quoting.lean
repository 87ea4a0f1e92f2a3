import RenderCompiler.Proofs.Reading.Layout
import RenderCompiler.Script.Printer

set_option autoImplicit false

namespace RenderCompiler

namespace Reading

def codeUnits (code : Nat) : List Nat :=
  if code < 0x10000 then [code]
  else [0xD800 + (code - 0x10000) / 0x400, 0xDC00 + (code - 0x10000) % 0x400]

def unitsOf (text : String) : List Nat := text.toList.flatMap fun c => codeUnits c.toNat

theorem joinUnits_codeUnits (c : Char) (rest : List Nat) :
    Json.joinUnits (codeUnits c.toNat ++ rest) = (Json.joinUnits rest).map (c :: ·) := by
  have scalar : c.toNat < 0xD800 ∨ 0xDFFF < c.toNat ∧ c.toNat < 0x110000 := c.valid
  have same : Char.ofNat c.toNat = c := Char.ofNat_toNat c
  unfold codeUnits
  split
  next one =>
    have apart : Json.isHighSurrogate c.toNat = false ∧ Json.isLowSurrogate c.toNat = false := by
      simp only [Json.isHighSurrogate, Json.isLowSurrogate, Bool.and_eq_false_iff,
        decide_eq_false_iff_not]
      omega
    cases rest with
    | nil => simp [Json.joinUnits, apart, same]
    | cons unit rest => simp [Json.joinUnits, apart, same]
  next two =>
    have high : Json.isHighSurrogate (0xD800 + (c.toNat - 0x10000) / 0x400) = true := by
      simp only [Json.isHighSurrogate, Bool.and_eq_true, decide_eq_true_eq]
      omega
    have low : Json.isLowSurrogate (0xDC00 + (c.toNat - 0x10000) % 0x400) = true := by
      simp only [Json.isLowSurrogate, Bool.and_eq_true, decide_eq_true_eq]
      omega
    have code : 0x10000 + (0xD800 + (c.toNat - 0x10000) / 0x400 - 0xD800) * 0x400 +
        (0xDC00 + (c.toNat - 0x10000) % 0x400 - 0xDC00) = c.toNat := by
      omega
    simp only [List.cons_append, List.nil_append, Json.joinUnits, high, low, if_true, code, same]

theorem joinUnits_unitsOf (text : String) : Json.joinUnits (unitsOf text) = some text.toList := by
  unfold unitsOf
  induction text.toList with
  | nil => rfl
  | cons c rest ih => rw [List.flatMap_cons, joinUnits_codeUnits, ih, Option.map_some]

theorem unitsOf_inj {s t : String} (same : unitsOf s = unitsOf t) : s = t := by
  have joined := joinUnits_unitsOf s
  rw [same, joinUnits_unitsOf, Option.some.injEq] at joined
  exact String.toList_inj.mp joined.symm

def hexNumber? (digits : List Char) : Option Nat :=
  (digits.mapM Json.hexDigit?).map fun values => values.foldl (fun n value => 16 * n + value) 0

inductive LiteralPart : List Char → List Nat → Prop
  | plain {c : Char} (quote : c ≠ '\'') (slash : c ≠ '\\') (feed : c ≠ '\n') (back : c ≠ '\r') :
      LiteralPart [c] (codeUnits c.toNat)
  | escape {letter c : Char} (escaped : escaped? letter = some c) :
      LiteralPart ['\\', letter] (codeUnits c.toNat)
  | null : LiteralPart ['\\', '0'] [0]
  | byte {a b : Char} {unit : Nat} (digits : Json.hexUnit? '0' '0' a b = some unit) :
      LiteralPart ['\\', 'x', a, b] [unit]
  | unit {a b c d : Char} {unit : Nat} (digits : Json.hexUnit? a b c d = some unit) :
      LiteralPart ['\\', 'u', a, b, c, d] [unit]
  | point {digits : List Char} {code : Nat} (notNil : digits ≠ [])
      (number : hexNumber? digits = some code) (range : code < 0x110000) :
      LiteralPart ('\\' :: 'u' :: '\x7b' :: digits ++ ['\x7d']) (codeUnits code)
  -- A line that goes on in the next one.
  | lineEnd {c : Char} (lineEnd : isLineEnd c = true) : LiteralPart ['\\', c] []
  | lineFeed : LiteralPart ['\\', '\r', '\n'] []

inductive LiteralContent : List Char → List Nat → Prop
  | nil : LiteralContent [] []
  | cons {part rest : List Char} {units more : List Nat} (first : LiteralPart part units)
      (apart : part = ['\\', '0'] → ∀ c ∈ rest.head?, isDigit c = false)
      (later : LiteralContent rest more) : LiteralContent (part ++ rest) (units ++ more)

inductive Literal : List Char → List Nat → Prop
  | enclose {chars : List Char} {units : List Nat} (content : LiteralContent chars units) :
      Literal ('\'' :: chars ++ ['\'']) units

def Visible (c : Char) : Prop :=
  0x20 ≤ c.toNat ∧ (c.toNat < 0x7F ∨ 0xA0 ≤ c.toNat) ∧ c.toNat ≠ 0x2028 ∧ c.toNat ≠ 0x2029

instance (c : Char) : Decidable (Visible c) := inferInstanceAs (Decidable (_ ∧ _ ∧ _ ∧ _))

-- Where quotes stand that no backslash escapes, counted from a position.
def bareQuotes (position : Nat) : List Char → List Nat
  | [] => []
  | '\\' :: _ :: rest => bareQuotes (position + 2) rest
  | c :: rest =>
    if c = '\'' then position :: bareQuotes (position + 1) rest else bareQuotes (position + 1) rest

theorem hexDigit?_apart {c : Char} {value : Nat} (digit : Json.hexDigit? c = some value) :
    c ≠ '\'' ∧ c ≠ '\\' ∧ c ≠ '\x7b' := by
  refine ⟨?_, ?_, ?_⟩ <;>
  · rintro rfl
    cases digit

structure IsUnit (c : Char) (digits : List Char) : Prop where
  small : c.toNat < 0xA0 ∨ c.toNat = 0x2028 ∨ c.toNat = 0x2029
  read : unitOf? digits = some c.toNat
  visible : ∀ d ∈ digits, Visible d

theorem visible_of_all {digits : List Char}
    (all : digits.all (fun d => decide (Visible d)) = true) : ∀ d ∈ digits, Visible d :=
  fun d member => of_decide_eq_true (List.all_eq_true.mp all d member)

theorem literalChar_cases (c : Char) :
    (literalChar c = [c] ∧ c ≠ '\'' ∧ c ≠ '\\' ∧ Visible c) ∨
    (∃ letter, literalChar c = ['\\', letter] ∧ escaped? letter = some c ∧ Visible letter) ∨
    ∃ digits, literalChar c = '\\' :: 'u' :: digits ∧ IsUnit c digits := by
  unfold literalChar
  split
  next => exact .inr (.inl ⟨_, rfl, by decide, by decide⟩)
  next => exact .inr (.inl ⟨_, rfl, by decide, by decide⟩)
  next => exact .inr (.inl ⟨_, rfl, by decide, by decide⟩)
  next => exact .inr (.inl ⟨_, rfl, by decide, by decide⟩)
  next => exact .inr (.inl ⟨_, rfl, by decide, by decide⟩)
  next => exact .inr (.inr ⟨_, rfl, by decide, by decide, visible_of_all (by decide)⟩)
  next => exact .inr (.inr ⟨_, rfl, by decide, by decide, visible_of_all (by decide)⟩)
  next quote slash feed back _ line paragraph =>
    split
    next control =>
      have small : c.toNat < 0xA0 := by
        simp only [isControl, Bool.or_eq_true, Bool.and_eq_true, decide_eq_true_eq] at control
        omega
      have visible : ∀ code : Fin 0xA0,
          (hexFour code).all (fun d => decide (Visible d)) = true := by decide +kernel
      exact .inr (.inr ⟨_, rfl, .inl small, unitOf?_hexFour small,
        visible_of_all (visible ⟨c.toNat, small⟩)⟩)
    next printed =>
      refine .inl ⟨rfl, quote, slash, ?_⟩
      have line : c.toNat ≠ 0x2028 := fun same => line (Char.toNat_inj.mp same)
      have paragraph : c.toNat ≠ 0x2029 := fun same => paragraph (Char.toNat_inj.mp same)
      simp only [isControl, Bool.or_eq_true, Bool.and_eq_true, decide_eq_true_eq] at printed
      exact ⟨by omega, by omega, line, paragraph⟩

theorem codeUnits_small {code : Nat} (small : code < 0x10000) : codeUnits code = [code] :=
  if_pos small

theorem IsUnit.codeUnits {c : Char} {digits : List Char} (isUnit : IsUnit c digits) :
    codeUnits c.toNat = [c.toNat] := by
  have small := isUnit.small
  exact codeUnits_small (by omega)

theorem IsUnit.digits {c : Char} {digits : List Char} (isUnit : IsUnit c digits) :
    ∃ w x y z, digits = [w, x, y, z] ∧ Json.hexUnit? w x y z = some c.toNat := by
  have read := isUnit.read
  unfold unitOf? at read
  split at read
  next w x y z => exact ⟨w, x, y, z, rfl, read⟩
  next => cases read

theorem hexUnit?_digits {w x y z : Char} {unit : Nat}
    (read : Json.hexUnit? w x y z = some unit) :
    ∀ d ∈ [w, x, y, z], ∃ value, Json.hexDigit? d = some value := by
  unfold Json.hexUnit? at read
  simp only [Option.bind_eq_bind, Option.bind_eq_some_iff] at read
  obtain ⟨a, first, b, second, c, third, d, fourth, -⟩ := read
  simp [first, second, third, fourth]

theorem literalPart_literalChar (c : Char) :
    LiteralPart (literalChar c) (codeUnits c.toNat) := by
  rcases literalChar_cases c with ⟨text, quote, slash, visible⟩ | ⟨letter, text, escaped, -⟩ |
    ⟨digits, text, isUnit⟩
  · rw [text]
    have feed : c ≠ '\n' := by
      rintro rfl
      exact absurd visible (by decide)
    have back : c ≠ '\r' := by
      rintro rfl
      exact absurd visible (by decide)
    exact .plain quote slash feed back
  · rw [text]
    exact .escape escaped
  · rw [text, isUnit.codeUnits]
    obtain ⟨w, x, y, z, rfl, read⟩ := isUnit.digits
    exact .unit read

theorem literalContent_quoted (chars : List Char) :
    LiteralContent (chars.flatMap literalChar) (chars.flatMap fun c => codeUnits c.toNat) := by
  induction chars with
  | nil => exact .nil
  | cons c rest ih =>
    refine .cons (literalPart_literalChar c) ?_ ih
    intro null
    rcases literalChar_cases c with ⟨text, -⟩ | ⟨letter, text, escaped, -⟩ | ⟨digits, text, -⟩
    · rw [text] at null
      cases null
    · rw [text] at null
      cases null
      cases escaped
    · rw [text] at null
      cases null

theorem LiteralPart.head {part : List Char} {units : List Nat} (isPart : LiteralPart part units) :
    ∃ c more, part = c :: more ∧ c ≠ '\'' := by
  cases isPart with
  | plain quote => exact ⟨_, _, rfl, quote⟩
  | _ => exact ⟨_, _, rfl, by decide⟩

theorem escaped?_of_lineEnd {c : Char} (lineEnd : isLineEnd c = true) : escaped? c = none := by
  unfold escaped?
  split <;> first | cases lineEnd | simp [lineEnd]

variable {front back rest : List Char} {units : List Nat}

-- The first part of a literal that begins as a written character is that character.
theorem LiteralPart.unique {c : Char} (isPart : LiteralPart front units)
    (same : front ++ back = literalChar c ++ rest) :
    front = literalChar c ∧ units = codeUnits c.toNat := by
  rcases literalChar_cases c with ⟨text, quote, slash, -⟩ | ⟨letter, text, escaped, -⟩ |
    ⟨digits, text, isUnit⟩
  · rw [text] at same ⊢
    cases isPart with
    | plain =>
      cases same
      exact ⟨rfl, rfl⟩
    | _ =>
      cases same
      exact absurd rfl slash
  · rw [text] at same ⊢
    cases isPart with
    | plain _ slash =>
      cases same
      exact absurd rfl slash
    | escape other =>
      cases same
      rw [escaped] at other
      cases other
      exact ⟨rfl, rfl⟩
    | lineEnd lineEnd =>
      cases same
      rw [escaped?_of_lineEnd lineEnd] at escaped
      cases escaped
    | _ =>
      cases same
      cases escaped
  · obtain ⟨w, x, y, z, rfl, read⟩ := isUnit.digits
    rw [text] at same ⊢
    cases isPart with
    | plain _ slash =>
      cases same
      exact absurd rfl slash
    | escape escaped =>
      cases same
      cases escaped
    | unit other =>
      cases same
      rw [read] at other
      cases other
      exact ⟨rfl, isUnit.codeUnits.symm⟩
    | point =>
      simp only [List.cons_append, List.cons.injEq] at same
      obtain ⟨-, -, rfl, -⟩ := same
      obtain ⟨value, digit⟩ := hexUnit?_digits read _ List.mem_cons_self
      cases digit
    | lineEnd lineEnd =>
      cases same
      cases lineEnd
    | _ => cases same

theorem LiteralContent.unique {chars : List Char} (content : LiteralContent front units)
    (same : front ++ '\'' :: back = chars.flatMap literalChar ++ '\'' :: rest) :
    front = chars.flatMap literalChar ∧ back = rest ∧
      units = chars.flatMap fun c => codeUnits c.toNat := by
  induction chars generalizing front units with
  | nil =>
    cases content with
    | nil =>
      cases same
      exact ⟨rfl, rfl, rfl⟩
    | cons first =>
      obtain ⟨c, more, rfl, quote⟩ := first.head
      cases same
      exact absurd rfl quote
  | cons c chars ih =>
    rw [List.flatMap_cons, List.append_assoc] at same
    cases content with
    | nil =>
      obtain ⟨d, more, written, quote⟩ := (literalPart_literalChar c).head
      rw [written] at same
      cases same
      exact absurd rfl quote
    | cons first _ later =>
      rw [List.append_assoc] at same
      obtain ⟨rfl, rfl⟩ := first.unique same
      obtain ⟨rfl, rfl, rfl⟩ := ih later (List.append_cancel_left same)
      exact ⟨rfl, rfl, rfl⟩

theorem literal_quoted (s : String) : Literal (quoted s) (unitsOf s) :=
  .enclose (literalContent_quoted s.toList)

theorem Literal.unique {s : String} (literal : Literal front units)
    (same : front ++ back = quoted s ++ rest) :
    front = quoted s ∧ back = rest ∧ units = unitsOf s := by
  cases literal with
  | enclose content =>
    simp only [quoted, List.cons_append, List.append_assoc, List.nil_append, List.cons.injEq,
      true_and] at same ⊢
    obtain ⟨rfl, rfl, rfl⟩ := content.unique same
    exact ⟨rfl, rfl, rfl⟩

theorem visible_quoted (s : String) : ∀ c ∈ quoted s, Visible c := by
  have chars : ∀ c, ∀ d ∈ literalChar c, Visible d := by
    intro c
    rcases literalChar_cases c with ⟨text, -, -, visible⟩ | ⟨letter, text, -, visible⟩ |
      ⟨digits, text, isUnit⟩
    · rw [text]
      exact List.forall_mem_singleton.mpr visible
    · rw [text]
      exact List.forall_mem_cons.mpr ⟨by decide, List.forall_mem_singleton.mpr visible⟩
    · rw [text]
      exact List.forall_mem_cons.mpr ⟨by decide, List.forall_mem_cons.mpr
        ⟨by decide, isUnit.visible⟩⟩
  intro c member
  simp only [quoted, List.cons_append, List.mem_cons, List.mem_append, List.mem_flatMap,
    List.not_mem_nil, or_false] at member
  rcases member with rfl | ⟨d, -, written⟩ | rfl
  · decide
  · exact chars d c written
  · decide

theorem bareQuotes_plain {c : Char} (quote : c ≠ '\'') (slash : c ≠ '\\') (position : Nat) :
    bareQuotes position (c :: rest) = bareQuotes (position + 1) rest := by
  rw [bareQuotes, if_neg quote]
  rintro d more rfl
  exact absurd rfl slash

theorem bareQuotes_literalChar (c : Char) (position : Nat) :
    bareQuotes position (literalChar c ++ rest) =
      bareQuotes (position + (literalChar c).length) rest := by
  rcases literalChar_cases c with ⟨text, quote, slash, -⟩ | ⟨letter, text, -⟩ |
    ⟨digits, text, isUnit⟩
  · rw [text]
    exact bareQuotes_plain quote slash position
  · rw [text]
    rfl
  · obtain ⟨w, x, y, z, rfl, read⟩ := isUnit.digits
    have apart : ∀ d ∈ [w, x, y, z], d ≠ '\'' ∧ d ≠ '\\' := by
      intro d member
      obtain ⟨value, digit⟩ := hexUnit?_digits read d member
      exact ⟨(hexDigit?_apart digit).1, (hexDigit?_apart digit).2.1⟩
    simp only [List.forall_mem_cons] at apart
    obtain ⟨first, second, third, fourth, -⟩ := apart
    rw [text]
    change bareQuotes (position + 2) (w :: x :: y :: z :: rest) = _
    rw [bareQuotes_plain first.1 first.2, bareQuotes_plain second.1 second.2,
      bareQuotes_plain third.1 third.2, bareQuotes_plain fourth.1 fourth.2]
    rfl

theorem bareQuotes_chars (chars rest : List Char) (position : Nat) :
    bareQuotes position (chars.flatMap literalChar ++ rest) =
      bareQuotes (position + (chars.flatMap literalChar).length) rest := by
  induction chars generalizing position with
  | nil => rfl
  | cons c chars ih =>
    rw [List.flatMap_cons, List.append_assoc, bareQuotes_literalChar, ih, List.length_append,
      Nat.add_assoc]

theorem bareQuotes_quoted (s : String) :
    bareQuotes 0 (quoted s) = [0, (quoted s).length - 1] := by
  have inside := bareQuotes_chars s.toList ['\''] 1
  have length : (quoted s).length - 1 = 1 + (s.toList.flatMap literalChar).length := by
    simp [quoted, Nat.add_comm]
  rw [length, quoted, List.cons_append, bareQuotes, if_pos rfl, inside]
  · rfl
  · rintro c more ⟨⟩

section Names

variable (alphabet : Alphabet)

-- Numbers, computed names, strings in other quotes and names with escapes cannot be what is
-- printed.
inductive KeyText : List Char → List Nat → Prop
  | name {text : String} (name : alphabet.IsName text) : KeyText text.toList (unitsOf text)
  | string {text : List Char} {units : List Nat} (literal : Literal text units) : KeyText text units

inductive AccessText : List Char → List Nat → Prop
  | point {text : String} (name : alphabet.IsName text) :
      AccessText ('.' :: text.toList) (unitsOf text)
  | bracket {text : List Char} {units : List Nat} (literal : Literal text units) :
      AccessText ('[' :: text ++ [']']) units

def keyText (name : String) : List Char := (keyPiece name).text

def accessText (property : String) : List Char := written (memberPieces property)

theorem keyText_eq (name : String) :
    keyText name = if isBareName name then name.toList else quoted name := by
  unfold keyText keyPiece
  split <;> rfl

theorem accessText_eq (property : String) :
    accessText property =
      if isBareName property then '.' :: property.toList else '[' :: quoted property ++ [']'] := by
  unfold accessText memberPieces
  split
  · simp [written, Piece.text, Piece.mark, Piece.word, Token.text]
  · simp [written, Piece.text, Piece.mark, Piece.string, Token.text]

theorem keyText_text (name : String) : KeyText alphabet (keyText name) (unitsOf name) := by
  rw [keyText_eq]
  split
  next bare => exact .name (isName_of_isBareName bare)
  next => exact .string (literal_quoted name)

theorem accessText_text (property : String) :
    AccessText alphabet (accessText property) (unitsOf property) := by
  rw [accessText_eq]
  split
  next bare => exact .point (isName_of_isBareName bare)
  next => exact .bracket (literal_quoted property)

variable {alphabet}

theorem Literal.head (literal : Literal front units) : ∃ more, front = '\'' :: more := by
  cases literal with
  | enclose => exact ⟨_, rfl⟩

theorem Alphabet.IsName.head {text : String} (name : alphabet.IsName text) :
    ∃ c more, text.toList = c :: more ∧ c ≠ '\'' := by
  obtain ⟨c, more, chars, start, -⟩ := name
  exact ⟨c, more, chars, ne_of_start start (by decide) rfl⟩

theorem Alphabet.IsName.all {text : String} (name : alphabet.IsName text) :
    ∀ c ∈ text.toList, alphabet.part c = true := by
  obtain ⟨c, more, chars, start, parts⟩ := name
  rw [chars]
  exact List.forall_mem_cons.mpr ⟨alphabet.part_of_start c start, parts⟩

theorem Alphabet.IsName.unique {text other : String} (name : alphabet.IsName text)
    (otherName : alphabet.IsName other) (ends : ∀ c ∈ back.head?, alphabet.part c = false)
    (otherEnds : ∀ c ∈ rest.head?, alphabet.part c = false)
    (same : text.toList ++ back = other.toList ++ rest) : text = other ∧ back = rest := by
  have names : text.toList = other.toList := by
    rw [← takeWhile_span name.all ends, same, takeWhile_span otherName.all otherEnds]
  rw [names] at same
  exact ⟨String.toList_inj.mp names, List.append_cancel_left same⟩

theorem KeyText.unique {name : String} (key : KeyText alphabet front units)
    (same : front ++ ':' :: back = keyText name ++ ':' :: rest) :
    front = keyText name ∧ back = rest ∧ units = unitsOf name := by
  have colon (text : List Char) : ∀ c ∈ (':' :: text).head?, alphabet.part c = false := by
    rintro c ⟨⟩
    exact alphabet.part_ascii ':' (by decide)
  rw [keyText_eq] at same ⊢
  split at same
  next bare =>
    have plain : alphabet.IsName name := isName_of_isBareName bare
    rw [if_pos bare]
    cases key with
    | name other =>
      obtain ⟨rfl, later⟩ := other.unique plain (colon back) (colon rest) same
      cases later
      exact ⟨rfl, rfl, rfl⟩
    | string literal =>
      obtain ⟨more, rfl⟩ := literal.head
      obtain ⟨c, others, chars, apart⟩ := plain.head
      rw [chars] at same
      exact absurd (List.cons.inj same).1.symm apart
  next quotes =>
    rw [if_neg quotes]
    cases key with
    | name other =>
      obtain ⟨c, others, chars, apart⟩ := other.head
      rw [chars] at same
      exact absurd (List.cons.inj same).1 apart
    | string literal =>
      obtain ⟨rfl, later, rfl⟩ := literal.unique same
      cases later
      exact ⟨rfl, rfl, rfl⟩

theorem nothing_follows : ∀ c ∈ ([] : List Char).head?, alphabet.part c = false := by
  rintro c ⟨⟩

theorem AccessText.unique {property : String} (access : AccessText alphabet front units)
    (ends : ∀ c ∈ back.head?, alphabet.part c = false)
    (otherEnds : ∀ c ∈ rest.head?, alphabet.part c = false)
    (same : front ++ back = accessText property ++ rest) :
    front = accessText property ∧ back = rest ∧ units = unitsOf property := by
  rw [accessText_eq] at same ⊢
  split at same
  next bare =>
    have plain : alphabet.IsName property := isName_of_isBareName bare
    rw [if_pos bare]
    cases access with
    | point other =>
      rw [List.cons_append, List.cons_append, List.cons.injEq] at same
      obtain ⟨rfl, later⟩ := other.unique plain ends otherEnds same.2
      exact ⟨rfl, later, rfl⟩
    | bracket => cases same
  next quotes =>
    rw [if_neg quotes]
    cases access with
    | point => cases same
    | bracket literal =>
      simp only [List.cons_append, List.append_assoc, List.cons.injEq, true_and,
        List.nil_append] at same
      obtain ⟨rfl, later, rfl⟩ := literal.unique same
      cases later
      exact ⟨rfl, rfl, rfl⟩

end Names

def lead (items : List (List Piece)) : List Piece :=
  items.flatMap fun item => item ++ [.mark ",", .space]

theorem separated_lead (items : List (List Piece)) (item : List Piece)
    (rest : List (List Piece)) :
    separated (items ++ item :: rest) = lead items ++ separated (item :: rest) := by
  induction items with
  | nil => rfl
  | cons first items ih =>
    have more : separated (first :: (items ++ item :: rest)) =
        first ++ .mark "," :: .space :: separated (items ++ item :: rest) := by
      cases items <;> rfl
    rw [List.cons_append, more, ih]
    simp [lead]

theorem separated_cons (item : List Piece) (rest : List (List Piece)) :
    ∃ after, separated (item :: rest) = item ++ after := by
  cases rest with
  | nil => exact ⟨[], (List.append_nil item).symm⟩
  | cons next rest => exact ⟨_, rfl⟩

theorem propertiesPieces_append (first others : List (String × Expr)) :
    propertiesPieces (first ++ others) = propertiesPieces first ++ propertiesPieces others := by
  induction first with
  | nil => simp [propertiesPieces]
  | cons property first ih =>
    obtain ⟨key, value⟩ := property
    simp [propertiesPieces, ih]

theorem object_print (before after : List (String × Expr)) (key : String) (value : Expr) :
    ∃ rest, (Expr.object (before ++ (key, value) :: after)).print.toList =
      written (.mark "\x7b" :: .space :: lead (propertiesPieces before)) ++
        (keyText key ++ ':' :: rest) := by
  have pieces : (Expr.object (before ++ (key, value) :: after)).pieces =
      .mark "\x7b" :: .space ::
        separated (propertiesPieces (before ++ (key, value) :: after)) ++
          [.space, .mark "\x7d"] := by
    cases before <;> simp only [List.nil_append, List.cons_append, Expr.pieces]
  obtain ⟨more, items⟩ := separated_cons
    (keyPiece key :: .mark ":" :: .space :: value.placed Level.assignment value.pieces)
    (propertiesPieces after)
  have text : (Expr.object (before ++ (key, value) :: after)).print.toList =
      written (Expr.object (before ++ (key, value) :: after)).pieces := String.toList_ofList
  rw [text, pieces, propertiesPieces_append, propertiesPieces, separated_lead, items]
  simp only [written_append, written_cons, List.cons_append, List.append_assoc]
  exact ⟨_, rfl⟩

theorem member_print (object : Expr) (property : String) :
    (Expr.member object property).print.toList =
      written (object.placedAsObject object.pieces) ++ accessText property := by
  have text : (Expr.member object property).print.toList =
      written (Expr.member object property).pieces := String.toList_ofList
  rw [text, Expr.pieces, written_append, accessText]

theorem string_print (value : String) : (Expr.string value).print.toList = quoted value := by
  have text : (Expr.string value).print.toList = written (Expr.string value).pieces :=
    String.toList_ofList
  rw [text]
  simp [Expr.pieces, written, Piece.text, Piece.string, Token.text]

-- The text is a literal of the string and of nothing else.
structure IsLiteralOf (s : String) (text : List Char) : Prop where
  value : ∀ units, Literal text units ↔ units = unitsOf s
  visible : ∀ c ∈ text, Visible c
  quotes : bareQuotes 0 text = [0, text.length - 1]
  -- Whatever follows, no other literal begins here.
  closed : ∀ front back rest units, Literal front units → front ++ back = text ++ rest →
    front = text ∧ back = rest ∧ units = unitsOf s

structure AreNamesOf (alphabet : Alphabet) (name : String) (key access : List Char) : Prop where
  keyValue : ∀ units, KeyText alphabet key units ↔ units = unitsOf name
  keyClosed : ∀ front back rest units, KeyText alphabet front units →
    front ++ ':' :: back = key ++ ':' :: rest → front = key ∧ back = rest ∧ units = unitsOf name
  accessValue : ∀ units, AccessText alphabet access units ↔ units = unitsOf name
  accessClosed : ∀ front back rest units, AccessText alphabet front units →
    (∀ c ∈ back.head?, alphabet.part c = false) → (∀ c ∈ rest.head?, alphabet.part c = false) →
    front ++ back = access ++ rest → front = access ∧ back = rest ∧ units = unitsOf name

theorem isLiteralOf_quoted (s : String) : IsLiteralOf s (quoted s) where
  value units := by
    constructor
    · intro literal
      have same : quoted s ++ [] = quoted s ++ [] := rfl
      exact (literal.unique same).2.2
    · rintro rfl
      exact literal_quoted s
  visible := visible_quoted s
  quotes := bareQuotes_quoted s
  closed _ _ _ _ literal same := literal.unique same

theorem areNamesOf_texts (alphabet : Alphabet) (name : String) :
    AreNamesOf alphabet name (keyText name) (accessText name) where
  keyValue units := by
    constructor
    · intro key
      have same : keyText name ++ ':' :: [] = keyText name ++ ':' :: [] := rfl
      exact (key.unique same).2.2
    · rintro rfl
      exact keyText_text alphabet name
  keyClosed _ _ _ _ key same := key.unique same
  accessValue units := by
    constructor
    · intro access
      have same : accessText name ++ [] = accessText name ++ [] := rfl
      exact (access.unique nothing_follows nothing_follows same).2.2
    · rintro rfl
      exact accessText_text alphabet name
  accessClosed _ _ _ _ access ends otherEnds same := access.unique ends otherEnds same

theorem string_print_inj {s t : String} (same : (Expr.string s).print = (Expr.string t).print) :
    s = t := by
  have texts : quoted s ++ [] = quoted t ++ [] := by
    rw [← string_print s, same, string_print]
  exact unitsOf_inj ((literal_quoted s).unique texts).2.2

theorem member_print_inj {object : Expr} {p q : String}
    (same : (Expr.member object p).print = (Expr.member object q).print) : p = q := by
  have texts := member_print object p
  rw [same, member_print] at texts
  have accesses : accessText p ++ [] = accessText q ++ [] := by
    rw [List.append_nil, List.append_nil, List.append_cancel_left texts]
  exact unitsOf_inj ((accessText_text .ascii p).unique nothing_follows nothing_follows accesses).2.2

theorem object_print_inj {before after later : List (String × Expr)} {p q : String}
    {value other : Expr}
    (same : (Expr.object (before ++ (p, value) :: after)).print =
      (Expr.object (before ++ (q, other) :: later)).print) : p = q := by
  obtain ⟨rest, first⟩ := object_print before after p value
  obtain ⟨back, second⟩ := object_print before later q other
  rw [same, second] at first
  have keys := List.append_cancel_left first
  exact unitsOf_inj ((keyText_text .ascii q).unique keys).2.2.symm

/-- Nothing is lost of a string, nor of a property's name: what is printed for it is written out
with visible characters, stands for it alone, ends where it ends whatever follows, and is printed
for nothing else in its place. -/
theorem printed_lossless (alphabet : Alphabet) :
    (∀ s : String, (Expr.string s).print.toList = quoted s ∧ IsLiteralOf s (quoted s) ∧
      Json.joinUnits (unitsOf s) = some s.toList) ∧
    (∀ s t : String, (Expr.string s).print = (Expr.string t).print → s = t) ∧
    (∀ name : String, AreNamesOf alphabet name (keyText name) (accessText name) ∧
      keyText name = (if isBareName name then name.toList else quoted name) ∧
      accessText name =
        if isBareName name then '.' :: name.toList else '[' :: quoted name ++ [']']) ∧
    (∀ before after key value, ∃ rest,
      (Expr.object (before ++ (key, value) :: after)).print.toList =
        written (.mark "\x7b" :: .space :: lead (propertiesPieces before)) ++
          (keyText key ++ ':' :: rest)) ∧
    (∀ before after later p q value other,
      (Expr.object (before ++ (p, value) :: after)).print =
        (Expr.object (before ++ (q, other) :: later)).print → p = q) ∧
    (∀ object property, (Expr.member object property).print.toList =
      written (object.placedAsObject object.pieces) ++ accessText property) ∧
    ∀ object p q, (Expr.member object p).print = (Expr.member object q).print → p = q := by
  refine ⟨fun s => ⟨string_print s, isLiteralOf_quoted s, joinUnits_unitsOf s⟩,
    fun s t => string_print_inj, fun name => ⟨areNamesOf_texts alphabet name, keyText_eq name,
      accessText_eq name⟩, object_print, ?_, member_print, fun object p q => member_print_inj⟩
  intro before after later p q value other
  exact object_print_inj

-- A backslash before a quote, line ends, a control character and digits after its code.
example : quoted "\\'\u2028\x85f\n" = "'\\\\\\'\\u2028\\u0085f\\n'".toList := by decide

end Reading

end RenderCompiler
