import RenderCompiler.Proofs.Reading.Derivation
import RenderCompiler.Proofs.Reading.Layout
import RenderCompiler.Proofs.Script.Parts

set_option autoImplicit false

namespace RenderCompiler

namespace Reading

section Lexemes

variable (pieces : List Piece)

@[simp] theorem lexemes_nil : lexemes [] = [] := rfl

@[simp] theorem lexemes_word (text : String) :
    lexemes (.word text :: pieces) = .word text :: lexemes pieces := rfl

@[simp] theorem lexemes_mark (text : String) :
    lexemes (.mark text :: pieces) = .mark text :: lexemes pieces := rfl

@[simp] theorem lexemes_string (value : String) :
    lexemes (.string value :: pieces) = .string value :: lexemes pieces := rfl

@[simp] theorem lexemes_space : lexemes (.space :: pieces) = lexemes pieces := rfl

@[simp] theorem lexemes_newline : lexemes (.newline :: pieces) = lexemes pieces := rfl

@[simp] theorem lexemes_indentation (level : Nat) : lexemes (indentation level) = [] := by
  cases level <;> rfl

@[simp] theorem lexemes_parenthesized :
    lexemes (parenthesized pieces) = .mark "(" :: (lexemes pieces ++ [.mark ")"]) := by
  simp [parenthesized]

end Lexemes

def tierOf : Expr → Tier
  | .conditional .. => .conditional
  | .or .. => .disjunction
  | .strictEqual .. => .equality
  | .not _ => .unary
  | .call .. | .member .. => .access
  | _ => .primary

theorem level_tierOf (e : Expr) : (tierOf e).level = e.level := by
  cases e <;> rfl

namespace Tier

def rank : Tier → Nat
  | conditional => 0
  | disjunction => 1
  | equality => 2
  | unary => 3
  | access => 4
  | primary => 5

theorem repeat_tighter {looser tier : Tier} (le : looser.level ≤ tier.level) :
    Nat.repeat tighter (tier.rank - looser.rank) looser = tier := by
  cases looser <;> cases tier <;> first | rfl | exact absurd le (by decide)

end Tier

theorem Derives.of_repeat {tokens : List Lexeme} {tree : Tree} {tier : Tier} (n : Nat)
    (derives : Derives (Nat.repeat Tier.tighter n tier) tokens tree) :
    Derives tier tokens tree := by
  induction n with
  | zero => exact derives
  | succ n ih => exact ih (.chain derives)

theorem Derives.loosen {tokens : List Lexeme} {tree : Tree} {looser tier : Tier}
    (derives : Derives tier tokens tree) (le : looser.level ≤ tier.level) :
    Derives looser tokens tree := by
  rw [← Tier.repeat_tighter le] at derives
  exact .of_repeat _ derives

section Places

variable {e : Expr} (own : Derives (tierOf e) (lexemes e.pieces) e.tree)

include own

theorem derives_parenthesized (tier : Tier) :
    Derives tier (lexemes (parenthesized e.pieces)) e.tree := by
  have inner : Derives .primary (lexemes (parenthesized e.pieces)) e.tree := by
    rw [lexemes_parenthesized]
    exact .parenthesized (own.loosen (by cases tierOf e <;> decide))
  exact inner.loosen (by cases tier <;> decide)

theorem derives_placed (demand : Nat) (tier : Tier)
    (takes : ∀ other : Tier, demand ≤ other.level → tier.level ≤ other.level) :
    Derives tier (lexemes (e.placed demand e.pieces)) e.tree := by
  unfold Expr.placed
  split
  next => exact derives_parenthesized own tier
  next tight =>
    rw [← level_tierOf] at tight
    exact own.loosen (takes _ (Nat.not_lt.mp tight))

theorem derives_operand (tier : Tier) :
    Derives tier (lexemes (e.placed tier.level e.pieces)) e.tree :=
  derives_placed own tier.level tier fun _ within => within

theorem derives_asObject : Derives .access (lexemes (e.placedAsObject e.pieces)) e.tree := by
  unfold Expr.placedAsObject
  split
  · exact derives_parenthesized own .access
  · exact derives_operand own .access

end Places

theorem derives_names {names : List String} (free : ∀ name ∈ names, name ∉ reservedWords) :
    DerivesNames (lexemes (separated (names.map fun name => [.word name]))) names := by
  match names with
  | [] => exact .nil
  | [name] => exact .last (free name List.mem_cons_self)
  | name :: second :: others =>
    have later := derives_names fun other member => free other (List.mem_cons_of_mem name member)
    exact .more (free name List.mem_cons_self) later

@[simp] theorem lexemes_paramPieces (names : List String) :
    lexemes (paramPieces names) =
      .mark "(" :: (lexemes (separated (names.map fun name => [.word name])) ++ [.mark ")"]) := by
  simp [paramPieces]

theorem lexemes_keyPiece (key : String) :
    ∃ lexeme, (∀ pieces, lexemes (keyPiece key :: pieces) = lexeme :: lexemes pieces) ∧
      (lexeme = .word key ∨ lexeme = .string key) := by
  unfold keyPiece
  split
  · exact ⟨.word key, fun _ => rfl, .inl rfl⟩
  · exact ⟨.string key, fun _ => rfl, .inr rfl⟩

def spokenParts : Parts := ⟨(· ∉ reservedWords), fun _ => True, fun _ => True⟩

mutual

theorem derives_pieces (e : Expr) (fine : e.MadeOf spokenParts) :
    Derives (tierOf e) (lexemes e.pieces) e.tree := by
  cases e with
  | identifier name => exact .identifier fine
  | string value => exact .string value
  | number value => exact .number _
  | boolean value =>
    cases value with
    | true => exact .yes
    | false => exact .no
  | null => exact .null
  | member object property =>
    have start := derives_asObject (derives_pieces object fine.2)
    rw [Expr.pieces, lexemes_append]
    unfold memberPieces
    split
    · exact .member property start
    · exact .quoted property start
  | call callee arguments =>
    have start := derives_asObject (derives_pieces callee fine.1)
    have given := derives_items arguments fine.2
    simp only [Expr.pieces, lexemes_append, lexemes_mark, lexemes_nil, List.append_assoc,
      List.cons_append]
    exact Derives.call start given
  | array elements =>
    simp only [Expr.pieces, lexemes_append, lexemes_mark, lexemes_nil, List.cons_append]
    exact Derives.array (derives_items elements fine)
  | object fields =>
    have entries := derives_fields fields fine
    have shape : lexemes (Expr.object fields).pieces =
        .mark "\x7b" :: (lexemes (separated (propertiesPieces fields)) ++ [.mark "\x7d"]) := by
      cases fields <;> simp [Expr.pieces, propertiesPieces, separated]
    rw [shape]
    exact .object entries
  | conditional test consequent alternate =>
    have tested := derives_operand (derives_pieces test fine.1) .disjunction
    have chosen := derives_operand (derives_pieces consequent fine.2.1) .conditional
    have otherwise := derives_operand (derives_pieces alternate fine.2.2) .conditional
    simp only [Expr.pieces, lexemes_append, lexemes_mark, lexemes_space, List.append_assoc,
      List.cons_append]
    exact Derives.conditional tested chosen otherwise
  | not argument =>
    exact .not (derives_operand (derives_pieces argument fine) .unary)
  | strictEqual left right =>
    have before := derives_operand (derives_pieces left fine.1) .equality
    have after := derives_placed (derives_pieces right fine.2) (Level.equality + 1) .unary
      (by intro other; cases other <;> decide)
    simp only [Expr.pieces, lexemes_append, lexemes_mark, lexemes_space]
    exact Derives.strictEqual before after
  | or left right =>
    have before := derives_operand (derives_pieces left fine.1) .disjunction
    have after := derives_placed (derives_pieces right fine.2) (Level.disjunction + 1) .equality
      (by intro other; cases other <;> decide)
    simp only [Expr.pieces, lexemes_append, lexemes_mark, lexemes_space]
    exact Derives.or before after
  | function params body =>
    have inside := derives_inline body fine.2
    simp only [Expr.pieces, lexemes_append, lexemes_word, lexemes_mark, lexemes_space, lexemes_nil,
      lexemes_paramPieces, List.append_assoc, List.cons_append, List.nil_append]
    exact Derives.function (derives_names fine.1) inside

theorem derives_items (es : List Expr) (fine : Expr.AllMadeOf spokenParts es) :
    DerivesItems (lexemes (separated (exprsPieces es))) (Expr.trees es) := by
  match es, fine with
  | [], _ => exact .nil
  | [e], fine => exact .last (derives_operand (derives_pieces e fine.1) .conditional)
  | e :: second :: es, fine =>
    have item := derives_operand (derives_pieces e fine.1) .conditional
    have later := derives_items (second :: es) fine.2
    simp only [exprsPieces, separated, lexemes_append, lexemes_mark, lexemes_space]
    exact DerivesItems.more item later

theorem derives_fields (fields : List (String × Expr))
    (fine : Expr.PropertiesMadeOf spokenParts fields) :
    DerivesFields (lexemes (separated (propertiesPieces fields))) (Expr.propertyTrees fields) := by
  match fields, fine with
  | [], _ => exact .nil
  | [(key, value)], fine =>
    obtain ⟨lexeme, spelled, named⟩ := lexemes_keyPiece key
    have entry := derives_operand (derives_pieces value fine.1) .conditional
    simp only [propertiesPieces, separated, spelled, lexemes_mark, lexemes_space]
    exact DerivesFields.last named entry
  | (key, value) :: second :: fields, fine =>
    obtain ⟨lexeme, spelled, named⟩ := lexemes_keyPiece key
    have entry := derives_operand (derives_pieces value fine.1) .conditional
    have later := derives_fields (second :: fields) fine.2
    simp only [propertiesPieces, separated, spelled, lexemes_append, lexemes_mark, lexemes_space,
      List.cons_append]
    exact DerivesFields.more named entry later

theorem derives_statement (s : Stmt) (fine : s.MadeOf spokenParts) (level : Nat)
    {others : List Lexeme} {body : List Clause} (later : DerivesBody others body) :
    DerivesBody (lexemes (s.pieces level) ++ others) (s.clause :: body) := by
  cases s with
  | returns argument =>
    have returned := derives_operand (derives_pieces argument fine) .conditional
    simp only [Stmt.pieces, lexemes_append, lexemes_word, lexemes_mark, lexemes_space,
      lexemes_indentation, lexemes_nil, List.append_assoc, List.cons_append, List.nil_append]
    exact DerivesBody.returns returned later
  | importDefault binding source =>
    simp only [Stmt.pieces, lexemes_append, lexemes_word, lexemes_mark, lexemes_string,
      lexemes_space, lexemes_indentation, lexemes_nil, List.cons_append, List.nil_append]
    exact DerivesBody.importDefault source fine later
  | exportDefaultFunction name params block =>
    have inside := derives_block block fine.2.2 (level + 1)
    simp only [Stmt.pieces, lexemes_append, lexemes_word, lexemes_mark, lexemes_space,
      lexemes_newline, lexemes_indentation, lexemes_nil, lexemes_paramPieces, List.append_assoc,
      List.cons_append, List.nil_append]
    exact DerivesBody.exportDefaultFunction fine.1 (derives_names fine.2.1) inside later

theorem derives_block (body : List Stmt) (fine : Stmt.AllMadeOf spokenParts body) (level : Nat) :
    DerivesBody (lexemes (blockPieces level body)) (Stmt.clauses body) := by
  cases body with
  | nil => exact .nil
  | cons s rest =>
    have later := derives_block rest fine.2 level
    simp only [blockPieces, Stmt.clauses, lexemes_append, lexemes_newline]
    exact derives_statement s fine.1 level later

theorem derives_inline (body : List Stmt) (fine : Stmt.AllMadeOf spokenParts body) :
    DerivesBody (lexemes (inlinePieces body)) (Stmt.clauses body) := by
  cases body with
  | nil => exact .nil
  | cons s rest =>
    have later := derives_inline rest fine.2
    simp only [inlinePieces, Stmt.clauses, lexemes_append, lexemes_space, List.cons_append]
    exact derives_statement s fine.1 0 later

end

section Printed

theorem derives_printed {e : Expr} (fine : e.MadeOf spokenParts) :
    Derives .conditional (lexemes (e.placed Level.assignment e.pieces)) e.tree :=
  derives_operand (derives_pieces e fine) .conditional

/-- The tokens that are printed for an expression, a statement or a script have one tree in the
grammar, and that is the tree of what was printed. So the tokens are the same only for what has the
same tree, where numbers count as they are spelled. -/
theorem printed_derives_iff :
    (∀ e : Expr, e.MadeOf spokenParts →
      (∀ tree, Derives .conditional (lexemes (e.placed Level.assignment e.pieces)) tree ↔
        tree = e.tree) ∧
      ∀ other : Expr, other.MadeOf spokenParts →
        lexemes (other.placed Level.assignment other.pieces) =
          lexemes (e.placed Level.assignment e.pieces) → other.tree = e.tree) ∧
    (∀ s : Stmt, s.MadeOf spokenParts →
      (∀ body, DerivesBody (lexemes (blockPieces 0 [s])) body ↔ body = [s.clause]) ∧
      ∀ other : Stmt, other.MadeOf spokenParts →
        lexemes (blockPieces 0 [other]) = lexemes (blockPieces 0 [s]) →
          other.clause = s.clause) ∧
    ∀ script : Script, Stmt.AllMadeOf spokenParts script.body →
      (∀ body, DerivesBody (lexemes script.pieces) body ↔ body = Stmt.clauses script.body) ∧
      ∀ other : Script, Stmt.AllMadeOf spokenParts other.body →
        lexemes other.pieces = lexemes script.pieces →
          Stmt.clauses other.body = Stmt.clauses script.body := by
  refine ⟨fun e fine => ?_, fun s fine => ?_, fun script fine => ?_⟩
  · have own := derives_printed fine
    refine ⟨fun tree => ⟨fun derives => derives.unique own, fun same => same ▸ own⟩, ?_⟩
    intro other fineOther same
    have there := derives_printed fineOther
    rw [same] at there
    exact there.unique own
  · have own := derives_block [s] ⟨fine, trivial⟩ 0
    refine ⟨fun body => ⟨fun derives => derives.unique own, fun same => same ▸ own⟩, ?_⟩
    intro other fineOther same
    have there := derives_block [other] ⟨fineOther, trivial⟩ 0
    rw [same] at there
    exact List.singleton_inj.mp (there.unique own)
  · have own := derives_block script.body fine 0
    refine ⟨fun body => ⟨fun derives => derives.unique own, fun same => same ▸ own⟩, ?_⟩
    intro other fineOther same
    have there := derives_block other.body fineOther 0
    rw [Script.pieces, Script.pieces] at same
    rw [same] at there
    exact there.unique own

-- Operands of every kind where they need parentheses, beside others where they need none.
def operands : Expr :=
  .conditional
    (.conditional (.identifier "a") (.or (.identifier "b") (.identifier "c")) .null)
    (.call (.member (.function ["x"] [.returns (.not (.member (.identifier "x") "a-b"))]) "call")
      [.strictEqual (.identifier "d") (.strictEqual (.not (.identifier "e")) (.boolean true))])
    (.or (.or (.identifier "f") (.identifier "g"))
      (.or (.identifier "h") (.conditional (.identifier "i") (.identifier "j") (.array []))))

def operandsScript : Script :=
  ⟨[.importDefault "a" "./a.js", .exportDefaultFunction "f" ["b", "c"] [.returns operands]]⟩

theorem operands_derives_iff :
    operands.MadeOf spokenParts ∧
    (∀ tree, Derives .conditional
      [.mark "(", .word "a", .mark "?", .word "b", .mark "||", .word "c", .mark ":", .word "null",
        .mark ")", .mark "?",
        .mark "(", .word "function", .mark "(", .word "x", .mark ")", .mark "\x7b", .word "return",
        .mark "!", .word "x", .mark "[", .string "a-b", .mark "]", .mark ";", .mark "\x7d",
        .mark ")", .mark ".", .word "call", .mark "(", .word "d", .mark "===", .mark "(",
        .mark "!", .word "e", .mark "===", .word "true", .mark ")", .mark ")", .mark ":",
        .word "f", .mark "||", .word "g", .mark "||", .mark "(", .word "h", .mark "||", .mark "(",
        .word "i", .mark "?", .word "j", .mark ":", .mark "[", .mark "]", .mark ")", .mark ")"]
      tree ↔ tree = operands.tree) ∧
    (∀ body, DerivesBody (lexemes (blockPieces 0 [.returns operands])) body ↔
      body = [.returns operands.tree]) ∧
    ∀ body, DerivesBody (lexemes operandsScript.pieces) body ↔
      body = Stmt.clauses operandsScript.body := by
  have fine : operands.MadeOf spokenParts := by
    simp only [operands, Expr.MadeOf, Expr.AllMadeOf, Stmt.MadeOf, Stmt.AllMadeOf, spokenParts]
    decide
  have free : ("a" ∉ reservedWords ∧ "f" ∉ reservedWords) ∧
      ∀ name ∈ ["b", "c"], name ∉ reservedWords := by decide
  have whole : Stmt.AllMadeOf spokenParts operandsScript.body :=
    ⟨free.1.1, ⟨free.1.2, free.2, fine, trivial⟩, trivial⟩
  exact ⟨fine, (printed_derives_iff.1 operands fine).1,
    (printed_derives_iff.2.1 (.returns operands) fine).1,
    (printed_derives_iff.2.2 operandsScript whole).1⟩

end Printed

theorem parse_print (script : Script) (fine : Stmt.AllMadeOf spokenParts script.body) :
    parse (lexemes script.pieces) = some (Stmt.clauses script.body) := by
  have found := (derives_block script.body fine 0).yields over_nil
  rw [List.append_nil] at found
  rw [parse, Script.pieces, found _ (by omega)]

end Reading

end RenderCompiler
