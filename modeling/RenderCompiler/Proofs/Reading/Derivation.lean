import RenderCompiler.Proofs.Reading.Parsing

set_option autoImplicit false

namespace RenderCompiler

namespace Reading

inductive Tier where
  | conditional
  | disjunction
  | equality
  | unary
  | access
  | primary
deriving DecidableEq, Repr

namespace Tier

def tighter : Tier → Tier
  | conditional => disjunction
  | disjunction => equality
  | equality => unary
  | unary => access
  | access | primary => primary

end Tier

inductive DerivesNames : List Lexeme → List String → Prop
  | nil : DerivesNames [] []
  | last {name : String} (free : name ∉ reservedWords) : DerivesNames [.word name] [name]
  | more {name : String} {tokens : List Lexeme} {names : List String}
      (free : name ∉ reservedWords) (later : DerivesNames tokens names) :
      DerivesNames (.word name :: .mark "," :: tokens) (name :: names)

mutual

/-- The tokens are an expression of this kind or a tighter one, with this tree. -/
inductive Derives : Tier → List Lexeme → Tree → Prop
  | chain {tier : Tier} {tokens : List Lexeme} {tree : Tree}
      (tight : Derives tier.tighter tokens tree) : Derives tier tokens tree
  | conditional {first second third : List Lexeme} {test consequent alternate : Tree}
      (tested : Derives .disjunction first test) (chosen : Derives .conditional second consequent)
      (otherwise : Derives .conditional third alternate) :
      Derives .conditional (first ++ .mark "?" :: (second ++ .mark ":" :: third))
        (.conditional test consequent alternate)
  | or {first second : List Lexeme} {left right : Tree} (before : Derives .disjunction first left)
      (after : Derives .equality second right) :
      Derives .disjunction (first ++ .mark "||" :: second) (.or left right)
  | strictEqual {first second : List Lexeme} {left right : Tree}
      (before : Derives .equality first left) (after : Derives .unary second right) :
      Derives .equality (first ++ .mark "===" :: second) (.strictEqual left right)
  | not {tokens : List Lexeme} {argument : Tree} (negated : Derives .unary tokens argument) :
      Derives .unary (.mark "!" :: tokens) (.not argument)
  | member {tokens : List Lexeme} {object : Tree} (property : String)
      (start : Derives .access tokens object) :
      Derives .access (tokens ++ [.mark ".", .word property]) (.member object property)
  | quoted {tokens : List Lexeme} {object : Tree} (property : String)
      (start : Derives .access tokens object) :
      Derives .access (tokens ++ [.mark "[", .string property, .mark "]"])
        (.member object property)
  | call {tokens inside : List Lexeme} {callee : Tree} {arguments : List Tree}
      (start : Derives .access tokens callee) (given : DerivesItems inside arguments) :
      Derives .access (tokens ++ .mark "(" :: (inside ++ [.mark ")"])) (.call callee arguments)
  | identifier {name : String} (free : name ∉ reservedWords) :
      Derives .primary [.word name] (.identifier name)
  | string (value : String) : Derives .primary [.string value] (.string value)
  | number (spelling : String) : Derives .primary [.number spelling] (.number spelling)
  | yes : Derives .primary [.word "true"] (.boolean true)
  | no : Derives .primary [.word "false"] (.boolean false)
  | null : Derives .primary [.word "null"] .null
  | parenthesized {tokens : List Lexeme} {tree : Tree}
      (inner : Derives .conditional tokens tree) :
      Derives .primary (.mark "(" :: (tokens ++ [.mark ")"])) tree
  | array {inside : List Lexeme} {elements : List Tree} (items : DerivesItems inside elements) :
      Derives .primary (.mark "[" :: (inside ++ [.mark "]"])) (.array elements)
  | object {inside : List Lexeme} {fields : List (String × Tree)}
      (entries : DerivesFields inside fields) :
      Derives .primary (.mark "\x7b" :: (inside ++ [.mark "\x7d"])) (.object fields)
  | function {opening inside : List Lexeme} {params : List String} {body : List Clause}
      (names : DerivesNames opening params) (block : DerivesBody inside body) :
      Derives .primary (.word "function" :: .mark "(" :: (opening ++ .mark ")" ::
        .mark "\x7b" :: (inside ++ [.mark "\x7d"]))) (.function params body)

inductive DerivesItems : List Lexeme → List Tree → Prop
  | nil : DerivesItems [] []
  | last {tokens : List Lexeme} {tree : Tree} (item : Derives .conditional tokens tree) :
      DerivesItems tokens [tree]
  | more {tokens others : List Lexeme} {tree : Tree} {trees : List Tree}
      (item : Derives .conditional tokens tree) (later : DerivesItems others trees) :
      DerivesItems (tokens ++ .mark "," :: others) (tree :: trees)

inductive DerivesFields : List Lexeme → List (String × Tree) → Prop
  | nil : DerivesFields [] []
  | last {key : Lexeme} {name : String} {tokens : List Lexeme} {tree : Tree}
      (named : key = .word name ∨ key = .string name) (value : Derives .conditional tokens tree) :
      DerivesFields (key :: .mark ":" :: tokens) [(name, tree)]
  | more {key : Lexeme} {name : String} {tokens others : List Lexeme} {tree : Tree}
      {fields : List (String × Tree)} (named : key = .word name ∨ key = .string name)
      (value : Derives .conditional tokens tree) (later : DerivesFields others fields) :
      DerivesFields (key :: .mark ":" :: (tokens ++ .mark "," :: others)) ((name, tree) :: fields)

inductive DerivesBody : List Lexeme → List Clause → Prop
  | nil : DerivesBody [] []
  | returns {tokens others : List Lexeme} {argument : Tree} {body : List Clause}
      (returned : Derives .conditional tokens argument) (later : DerivesBody others body) :
      DerivesBody (.word "return" :: (tokens ++ .mark ";" :: others)) (.returns argument :: body)
  | importDefault {binding : String} (source : String) {others : List Lexeme} {body : List Clause}
      (free : binding ∉ reservedWords) (later : DerivesBody others body) :
      DerivesBody (.word "import" :: .word binding :: .word "from" :: .string source ::
        .mark ";" :: others) (.importDefault binding source :: body)
  | exportDefaultFunction {name : String} {opening inside others : List Lexeme}
      {params : List String} {body rest : List Clause} (free : name ∉ reservedWords)
      (names : DerivesNames opening params) (block : DerivesBody inside body)
      (later : DerivesBody others rest) :
      DerivesBody (.word "export" :: .word "default" :: .word "function" :: .word name ::
        .mark "(" :: (opening ++ .mark ")" :: .mark "\x7b" :: (inside ++ .mark "\x7d" :: others)))
        (.exportDefaultFunction name params body :: rest)

end

namespace Tier

def level : Tier → Nat
  | conditional => Level.assignment
  | disjunction => Level.disjunction
  | equality => Level.equality
  | unary => Level.unary
  | access => Level.call
  | primary => Level.primary

-- What goes on with an expression of this kind has to bind less tightly than this.
def edge : Tier → Nat
  | conditional => Level.assignment
  | unary => Level.unary
  | tier => tier.level + 1

theorem level_le_tighter (tier : Tier) : tier.level ≤ tier.tighter.level := by
  cases tier <;> decide

theorem edge_le_tighter (tier : Tier) : tier.edge ≤ tier.tighter.edge := by
  cases tier <;> decide

theorem level_le_edge (tier : Tier) : tier.level ≤ tier.edge := by
  cases tier <;> decide

end Tier

theorem Derives.first {tier : Tier} {tokens : List Lexeme} {tree : Tree}
    (derives : Derives tier tokens tree) :
    ∃ first more, tokens = first :: more ∧ first ≠ .mark ")" ∧ first ≠ .mark "]" := by
  match derives with
  | .chain tight => exact tight.first
  | .conditional left _ _ | .or left _ | .strictEqual left _ | .member _ left | .quoted _ left
  | .call left _ =>
    obtain ⟨first, more, rfl, apart⟩ := left.first
    exact ⟨first, _, rfl, apart⟩
  | .not _ | .identifier _ | .string _ | .number _ | .yes | .no | .null | .parenthesized _
  | .array _ | .object _ | .function _ _ =>
    exact ⟨_, _, rfl, by simp⟩

theorem Derives.unclosed {tier : Tier} {tokens : List Lexeme} {tree : Tree} {closing : String}
    (derives : Derives tier tokens tree) (closes : closing ∈ [")", "]"]) (rest : List Lexeme) :
    expected closing (tokens ++ rest) = none := by
  obtain ⟨first, more, rfl, apart⟩ := derives.first
  simp only [List.mem_cons, List.not_mem_nil, or_false] at closes
  cases first with
  | mark text =>
    refine if_neg ?_
    rintro rfl
    rcases closes with rfl | rfl
    · exact apart.1 rfl
    · exact apart.2 rfl
  | word | string | number => rfl

theorem DerivesNames.paramNames {tokens : List Lexeme} {names : List String}
    (derives : DerivesNames tokens names) (rest : List Lexeme) :
    Reading.paramNames (tokens ++ .mark ")" :: rest) = some (names, rest) := by
  induction derives with
  | nil => rfl
  | last free => simp [Reading.paramNames, name?_of_free free]
  | more free _ ih =>
    simp only [List.cons_append, Reading.paramNames, name?_of_free free, ih]
    rfl

theorem DerivesNames.params {tokens : List Lexeme} {names : List String}
    (derives : DerivesNames tokens names) (rest : List Lexeme) :
    Reading.params (.mark "(" :: (tokens ++ [.mark ")"]) ++ rest) = some (names, rest) := by
  have inside := derives.paramNames rest
  simp [Reading.params, inside]

theorem key?_of_named {key : Lexeme} {name : String}
    (named : key = .word name ∨ key = .string name) : key? key = some name := by
  rcases named with rfl | rfl <;> rfl

def Found (tier : Tier) (tokens : List Lexeme) (tree : Tree) : Prop :=
  ∀ least rest out, least ≤ tier.level → tightness rest < tier.edge →
    Continues least tree rest out → Reads least (tokens ++ rest) out

section Found

variable {tier : Tier} {tokens rest : List Lexeme} {tree : Tree} (found : Found tier tokens tree)

include found

-- An operand with nothing to its right that would go on with it.
theorem Found.operand (demand : Nat) (within : demand ≤ tier.level) (tight : demand ≤ Level.call)
    (loose : tightness rest < demand) : Reads demand (tokens ++ rest) (tree, rest) :=
  found demand rest (tree, rest) within
    (Nat.lt_of_lt_of_le loose (Nat.le_trans within tier.level_le_edge)) (continues_stop tight loose)

theorem Found.item (within : Level.assignment ≤ tier.level) (plain : tightness rest = 0) :
    Reads Level.assignment (tokens ++ rest) (tree, rest) :=
  found.operand Level.assignment within (by decide) (by rw [plain]; decide)

end Found

mutual

theorem Derives.found {tier : Tier} {tokens : List Lexeme} {tree : Tree}
    (derives : Derives tier tokens tree) : Found tier tokens tree := by
  intro least rest out within loose next
  match derives with
  | .chain tight =>
    exact tight.found least rest out (Nat.le_trans within tier.level_le_tighter)
      (Nat.lt_of_lt_of_le loose tier.edge_le_tighter) next
  | .conditional tested chosen otherwise =>
    have looser : Level.assignment ≤ Level.disjunction := by decide
    have second := chosen.found.operand Level.assignment (Nat.le_refl _) (by decide) loose
    have third := otherwise.found.operand Level.assignment (Nat.le_refl _) (by decide) loose
    simp only [List.append_assoc, List.cons_append]
    exact tested.found least _ out (Nat.le_trans within looser)
      (show Level.assignment < Tier.disjunction.edge by decide)
      (continues_conditional within (chosen.found.item (Nat.le_refl _) rfl) third next)
  | .or before after =>
    have second := after.found.operand (Level.disjunction + 1) (by decide) (by decide) loose
    simp only [List.append_assoc, List.cons_append]
    exact before.found least _ out within (Nat.lt_succ_self Level.disjunction)
      (continues_disjunction within second next)
  | .strictEqual before after =>
    have second := after.found.operand (Level.equality + 1) (by decide) (by decide) loose
    simp only [List.append_assoc, List.cons_append]
    exact before.found least _ out within (Nat.lt_succ_self Level.equality)
      (continues_equality within second next)
  | .not negated =>
    exact reads_not (negated.found.operand Level.unary (by decide) (by decide) loose) next
  | .member property start =>
    rw [List.append_assoc]
    exact start.found least _ out within (Nat.lt_succ_self Level.call) (continues_member next)
  | .quoted property start =>
    rw [List.append_assoc]
    exact start.found least _ out within (Nat.lt_succ_self Level.call) (continues_quoted next)
  | .call start given =>
    have inside := given.lists (show ")" ∈ [")", "]"] by decide) rest
    simp only [List.append_assoc, List.cons_append, List.nil_append]
    exact start.found least _ out within (Nat.lt_succ_self Level.call) (continues_call inside next)
  | .identifier free => exact reads_atom (atom?_of_free free) next
  | .string value => exact reads_atom rfl next
  | .number spelling => exact reads_atom rfl next
  | .yes => exact reads_atom rfl next
  | .no => exact reads_atom rfl next
  | .null => exact reads_atom rfl next
  | .parenthesized inner =>
    simp only [List.append_assoc, List.cons_append, List.nil_append]
    exact reads_parenthesized (inner.found.item (Nat.le_refl _) rfl) next
  | .array items =>
    have inside := items.lists (show "]" ∈ [")", "]"] by decide) rest
    simp only [List.append_assoc, List.cons_append, List.nil_append]
    exact reads_array inside next
  | .object entries =>
    have inside := entries.yields rest
    simp only [List.append_assoc, List.cons_append, List.nil_append]
    exact reads_object inside next
  | .function names block =>
    have ended : Over (.mark "\x7d" :: rest) := over_mark
    have read := reads_function names.params (block.yields ended) next
    simpa using read

theorem DerivesItems.lists {tokens : List Lexeme} {trees : List Tree}
    (derives : DerivesItems tokens trees) {closing : String} (closes : closing ∈ [")", "]"])
    (rest : List Lexeme) : Lists closing (tokens ++ .mark closing :: rest) (trees, rest) := by
  have plain : tightness (.mark closing :: rest) = 0 := by
    simp only [List.mem_cons, List.not_mem_nil, or_false] at closes
    rcases closes with rfl | rfl <;> rfl
  match derives with
  | .nil => exact lists_nil closing
  | .last item =>
    have apart : closing ≠ "," := by
      rintro rfl
      exact absurd closes (by decide)
    exact lists_last apart (item.unclosed closes _) (item.found.item (Nat.le_refl _) plain)
  | .more item later =>
    rw [List.append_assoc]
    exact lists_cons (item.unclosed closes _) (item.found.item (Nat.le_refl _) rfl)
      (later.lists closes rest)

theorem DerivesFields.yields {tokens : List Lexeme} {fields : List (String × Tree)}
    (derives : DerivesFields tokens fields) (rest : List Lexeme) :
    Yields properties 1 (tokens ++ .mark "\x7d" :: rest) (fields, rest) := by
  match derives with
  | .nil => exact properties_nil
  | .last named value =>
    exact properties_last (key?_of_named named) (value.found.item (Nat.le_refl _) rfl)
  | .more named value later =>
    simp only [List.append_assoc, List.cons_append]
    exact properties_cons (key?_of_named named) (value.found.item (Nat.le_refl _) rfl)
      (later.yields rest)

theorem DerivesBody.yields {tokens rest : List Lexeme} {body : List Clause}
    (derives : DerivesBody tokens body) (ended : Over rest) :
    Yields clauses 1 (tokens ++ rest) (body, rest) := by
  match derives with
  | .nil => exact clauses_nil ended
  | .returns returned later =>
    simp only [List.append_assoc, List.cons_append]
    exact clauses_returns (returned.found.item (Nat.le_refl _) rfl) (later.yields ended)
  | .importDefault source free later =>
    exact clauses_importDefault free (later.yields ended)
  | .exportDefaultFunction free names block later =>
    have inside := clauses_exportDefaultFunction free names.params (block.yields over_mark)
      (later.yields ended)
    simpa using inside

end

theorem Yields.unique {α : Type} {parser : Nat → List Lexeme → Option α} {slack other : Nat}
    {tokens : List Lexeme} {first second : α} (here : Yields parser slack tokens first)
    (there : Yields parser other tokens second) : first = second := by
  have one := here (2 * tokens.length + slack + other + 1) (by omega)
  have two := there (2 * tokens.length + slack + other + 1) (by omega)
  exact Option.some.inj (one.symm.trans two)

theorem Derives.unique {tokens : List Lexeme} {tree other : Tree}
    (first : Derives .conditional tokens tree) (second : Derives .conditional tokens other) :
    tree = other := by
  have reads {tree : Tree} (derives : Derives .conditional tokens tree) :
      Reads Level.assignment (tokens ++ []) (tree, []) :=
    derives.found.item (Nat.le_refl _) rfl
  exact congrArg Prod.fst ((reads first).unique (reads second))

theorem over_nil : Over [] := fun _ same => by cases same

theorem DerivesBody.unique {tokens : List Lexeme} {body other : List Clause}
    (first : DerivesBody tokens body) (second : DerivesBody tokens other) : body = other :=
  congrArg Prod.fst ((first.yields over_nil).unique (second.yields over_nil))

end Reading

end RenderCompiler
