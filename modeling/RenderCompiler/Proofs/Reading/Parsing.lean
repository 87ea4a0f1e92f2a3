import RenderCompiler.Proofs.Reading.Grammar

set_option autoImplicit false

namespace RenderCompiler

namespace Reading

@[simp] theorem expected_self (mark : String) (rest : List Lexeme) :
    expected mark (.mark mark :: rest) = some rest :=
  if_pos rfl

-- The parser gives this answer whenever it has steps enough.
def Yields {α : Type} (parser : Nat → List Lexeme → Option α) (slack : Nat)
    (lexemes : List Lexeme) (out : α) : Prop :=
  ∀ steps, 2 * lexemes.length + slack < steps → parser steps lexemes = some out

theorem Yields.of_succ {α : Type} {parser : Nat → List Lexeme → Option α} {slack : Nat}
    {lexemes : List Lexeme} {out : α}
    (each : ∀ steps, 2 * lexemes.length + slack ≤ steps → parser (steps + 1) lexemes = some out) :
    Yields parser slack lexemes out := by
  intro steps enough
  cases steps with
  | zero => omega
  | succ steps => exact each steps (by omega)

def Reads (least : Nat) : List Lexeme → Tree × List Lexeme → Prop :=
  Yields (fun steps => expression steps least) 0

def Continues (least : Nat) (left : Tree) : List Lexeme → Tree × List Lexeme → Prop :=
  Yields (fun steps => continued steps least left) 0

def Lists (closing : String) : List Lexeme → List Tree × List Lexeme → Prop :=
  Yields (fun steps => listed steps closing) 1

def tightness : List Lexeme → Nat
  | .mark "." :: _ | .mark "[" :: _ | .mark "(" :: _ => Level.call
  | .mark "===" :: _ => Level.equality
  | .mark "||" :: _ => Level.disjunction
  | .mark "?" :: _ => Level.assignment
  | _ => 0

section Rules

variable {least : Nat} {tokens rest : List Lexeme} {tree left : Tree} {out : Tree × List Lexeme}

theorem continues_stop (tight : least ≤ Level.call) (loose : tightness rest < least) :
    Continues least left rest (left, rest) := by
  refine .of_succ fun steps enough => ?_
  unfold continued
  split
  all_goals first
    | rfl
    | (simp only [tightness] at loose; omega)
    | (simp only [tightness] at loose; rw [if_neg (by omega)])

theorem continues_member {name : String} (next : Continues least (.member left name) rest out) :
    Continues least left (.mark "." :: .word name :: rest) out := by
  refine .of_succ fun steps enough => ?_
  simp only [List.length_cons] at enough
  exact next steps (by omega)

theorem continues_quoted {name : String} (next : Continues least (.member left name) rest out) :
    Continues least left (.mark "[" :: .string name :: .mark "]" :: rest) out := by
  refine .of_succ fun steps enough => ?_
  simp only [List.length_cons] at enough
  exact next steps (by omega)

theorem continues_call {arguments : List Tree}
    (inside : Lists ")" (tokens ++ .mark ")" :: rest) (arguments, rest))
    (next : Continues least (.call left arguments) rest out) :
    Continues least left (.mark "(" :: (tokens ++ .mark ")" :: rest)) out := by
  refine .of_succ fun steps enough => ?_
  simp only [List.length_cons, List.length_append] at enough
  have inside := inside steps (by simp only [List.length_cons, List.length_append]; omega)
  exact Option.bind_eq_some_iff.mpr ⟨_, inside, next steps (by omega)⟩

theorem continues_equality {right : Tree} (within : least ≤ Level.equality)
    (operand : Reads (Level.equality + 1) (tokens ++ rest) (right, rest))
    (next : Continues least (.strictEqual left right) rest out) :
    Continues least left (.mark "===" :: (tokens ++ rest)) out := by
  refine .of_succ fun steps enough => ?_
  simp only [List.length_cons, List.length_append] at enough
  have operand := operand steps (by simp only [List.length_append]; omega)
  refine (if_pos within).trans ?_
  exact Option.bind_eq_some_iff.mpr ⟨_, operand, next steps (by omega)⟩

theorem continues_disjunction {right : Tree} (within : least ≤ Level.disjunction)
    (operand : Reads (Level.disjunction + 1) (tokens ++ rest) (right, rest))
    (next : Continues least (.or left right) rest out) :
    Continues least left (.mark "||" :: (tokens ++ rest)) out := by
  refine .of_succ fun steps enough => ?_
  simp only [List.length_cons, List.length_append] at enough
  have operand := operand steps (by simp only [List.length_append]; omega)
  refine (if_pos within).trans ?_
  exact Option.bind_eq_some_iff.mpr ⟨_, operand, next steps (by omega)⟩

theorem continues_conditional {others : List Lexeme} {consequent alternate : Tree}
    (within : least ≤ Level.assignment)
    (chosen : Reads Level.assignment (tokens ++ .mark ":" :: (others ++ rest))
      (consequent, .mark ":" :: (others ++ rest)))
    (other : Reads Level.assignment (others ++ rest) (alternate, rest))
    (next : Continues least (.conditional left consequent alternate) rest out) :
    Continues least left (.mark "?" :: (tokens ++ .mark ":" :: (others ++ rest))) out := by
  refine .of_succ fun steps enough => ?_
  simp only [List.length_cons, List.length_append] at enough
  have chosen := chosen steps (by simp only [List.length_cons, List.length_append]; omega)
  have other := other steps (by simp only [List.length_append]; omega)
  refine (if_pos within).trans (Option.bind_eq_some_iff.mpr ⟨_, chosen, ?_⟩)
  refine Option.bind_eq_some_iff.mpr ⟨_, expected_self ":" _, ?_⟩
  exact Option.bind_eq_some_iff.mpr ⟨_, other, next steps (by omega)⟩

theorem reads_atom {lexeme : Lexeme} (atom : atom? lexeme = some tree)
    (next : Continues least tree rest out) : Reads least (lexeme :: rest) out := by
  refine .of_succ fun steps enough => ?_
  simp only [List.length_cons] at enough
  have next := next steps (by omega)
  dsimp only at next ⊢
  cases lexeme with
  | mark text => cases atom
  | word text =>
    have apart : text ≠ "function" := by
      rintro rfl
      have reserved : atom? (.word "function") = none := rfl
      rw [reserved] at atom
      cases atom
    rw [expression] <;> simp [apart, atom, next]
  | string value =>
    rw [expression] <;> simp [atom, next]
  | number spelling =>
    rw [expression] <;> simp [atom, next]

theorem reads_parenthesized
    (inner : Reads Level.assignment (tokens ++ .mark ")" :: rest) (tree, .mark ")" :: rest))
    (next : Continues least tree rest out) :
    Reads least (.mark "(" :: (tokens ++ .mark ")" :: rest)) out := by
  refine .of_succ fun steps enough => ?_
  simp only [List.length_cons, List.length_append] at enough
  have inner := inner steps (by simp only [List.length_cons, List.length_append]; omega)
  refine Option.bind_eq_some_iff.mpr ⟨_, inner, ?_⟩
  exact Option.bind_eq_some_iff.mpr ⟨_, expected_self ")" rest, next steps (by omega)⟩

theorem reads_array {elements : List Tree}
    (inside : Lists "]" (tokens ++ .mark "]" :: rest) (elements, rest))
    (next : Continues least (.array elements) rest out) :
    Reads least (.mark "[" :: (tokens ++ .mark "]" :: rest)) out := by
  refine .of_succ fun steps enough => ?_
  simp only [List.length_cons, List.length_append] at enough
  have inside := inside steps (by simp only [List.length_cons, List.length_append]; omega)
  exact Option.bind_eq_some_iff.mpr ⟨_, inside, next steps (by omega)⟩

theorem reads_object {fields : List (String × Tree)}
    (inside : Yields properties 1 (tokens ++ .mark "\x7d" :: rest) (fields, rest))
    (next : Continues least (.object fields) rest out) :
    Reads least (.mark "\x7b" :: (tokens ++ .mark "\x7d" :: rest)) out := by
  refine .of_succ fun steps enough => ?_
  simp only [List.length_cons, List.length_append] at enough
  have inside := inside steps (by simp only [List.length_cons, List.length_append]; omega)
  exact Option.bind_eq_some_iff.mpr ⟨_, inside, next steps (by omega)⟩

theorem reads_not (argument : Reads Level.unary (tokens ++ rest) (tree, rest))
    (next : Continues least (.not tree) rest out) :
    Reads least (.mark "!" :: (tokens ++ rest)) out := by
  refine .of_succ fun steps enough => ?_
  simp only [List.length_cons, List.length_append] at enough
  have argument := argument steps (by simp only [List.length_append]; omega)
  exact Option.bind_eq_some_iff.mpr ⟨_, argument, next steps (by omega)⟩

theorem name?_of_free {name : String} (free : name ∉ reservedWords) :
    name? (.word name) = some name :=
  if_neg free

theorem atom?_of_free {name : String} (free : name ∉ reservedWords) :
    atom? (.word name) = some (.identifier name) := by
  have found := name?_of_free free
  unfold atom?
  split
  next same => cases same
  next same => cases same
  next same =>
    cases same
    exact absurd (by decide) free
  next same =>
    cases same
    exact absurd (by decide) free
  next same =>
    cases same
    exact absurd (by decide) free
  next => rw [found]; rfl

theorem reads_function {opening : List Lexeme} {names : List String} {body : List Clause}
    (given : ∀ rest, params (opening ++ rest) = some (names, rest))
    (inside : Yields clauses 1 (tokens ++ .mark "\x7d" :: rest) (body, .mark "\x7d" :: rest))
    (next : Continues least (.function names body) rest out) :
    Reads least (.word "function" :: (opening ++
      .mark "\x7b" :: (tokens ++ .mark "\x7d" :: rest))) out := by
  refine .of_succ fun steps enough => ?_
  simp only [List.length_cons, List.length_append] at enough
  have inside := inside steps (by simp only [List.length_cons, List.length_append]; omega)
  refine Option.bind_eq_some_iff.mpr ⟨_, given _, ?_⟩
  refine Option.bind_eq_some_iff.mpr ⟨_, expected_self "\x7b" _, ?_⟩
  refine Option.bind_eq_some_iff.mpr ⟨_, inside, ?_⟩
  exact Option.bind_eq_some_iff.mpr ⟨_, expected_self "\x7d" rest, next steps (by omega)⟩

theorem lists_nil (closing : String) : Lists closing (.mark closing :: rest) ([], rest) := by
  refine .of_succ fun steps enough => ?_
  simp [listed]

theorem lists_last {closing : String} (apart : closing ≠ ",")
    (unclosed : expected closing (tokens ++ .mark closing :: rest) = none)
    (last : Reads Level.assignment (tokens ++ .mark closing :: rest)
      (tree, .mark closing :: rest)) :
    Lists closing (tokens ++ .mark closing :: rest) ([tree], rest) := by
  refine .of_succ fun steps enough => ?_
  have last := last steps (by omega)
  dsimp only at last ⊢
  simp [listed, unclosed, last, apart]

theorem lists_cons {closing : String} {later : List Lexeme} {others : List Tree}
    (unclosed : expected closing (tokens ++ .mark "," :: later) = none)
    (first : Reads Level.assignment (tokens ++ .mark "," :: later) (tree, .mark "," :: later))
    (next : Lists closing later (others, rest)) :
    Lists closing (tokens ++ .mark "," :: later) (tree :: others, rest) := by
  refine .of_succ fun steps enough => ?_
  simp only [List.length_cons, List.length_append] at enough
  have first := first steps (by simp only [List.length_cons, List.length_append]; omega)
  have next := next steps (by omega)
  dsimp only at first next ⊢
  simp [listed, unclosed, first, next]

theorem properties_nil : Yields properties 1 (.mark "\x7d" :: rest) ([], rest) :=
  .of_succ fun _ _ => rfl

theorem properties_last {lexeme : Lexeme} {key : String} (found : key? lexeme = some key)
    (last : Reads Level.assignment (tokens ++ .mark "\x7d" :: rest) (tree, .mark "\x7d" :: rest)) :
    Yields properties 1 (lexeme :: .mark ":" :: (tokens ++ .mark "\x7d" :: rest))
      ([(key, tree)], rest) := by
  refine .of_succ fun steps enough => ?_
  simp only [List.length_cons] at enough
  have last := last steps (by omega)
  dsimp only at last
  rw [properties]
  · simp [found, last]
  · rintro rfl
    cases found

theorem properties_cons {lexeme : Lexeme} {key : String} {later : List Lexeme}
    {others : List (String × Tree)} (found : key? lexeme = some key)
    (first : Reads Level.assignment (tokens ++ .mark "," :: later) (tree, .mark "," :: later))
    (next : Yields properties 1 later (others, rest)) :
    Yields properties 1 (lexeme :: .mark ":" :: (tokens ++ .mark "," :: later))
      ((key, tree) :: others, rest) := by
  refine .of_succ fun steps enough => ?_
  simp only [List.length_cons, List.length_append] at enough
  have first := first steps (by simp only [List.length_cons, List.length_append]; omega)
  have next := next steps (by omega)
  dsimp only at first
  rw [properties]
  · simp [found, first, next]
  · rintro rfl
    cases found

def Over (rest : List Lexeme) : Prop := ∀ text, rest.head? ≠ some (.word text)

theorem clauses_nil (ended : Over rest) : Yields clauses 1 rest ([], rest) := by
  refine .of_succ fun steps enough => ?_
  unfold clauses
  split
  next none => cases none
  · exact (ended "return" rfl).elim
  · exact (ended "import" rfl).elim
  · exact (ended "export" rfl).elim
  · rfl

theorem clauses_returns {others : List Clause} {after : List Lexeme}
    (argument : Reads Level.assignment (tokens ++ .mark ";" :: rest) (tree, .mark ";" :: rest))
    (next : Yields clauses 1 rest (others, after)) :
    Yields clauses 1 (.word "return" :: (tokens ++ .mark ";" :: rest))
      (.returns tree :: others, after) := by
  refine .of_succ fun steps enough => ?_
  simp only [List.length_cons, List.length_append] at enough
  have argument := argument steps (by simp only [List.length_cons, List.length_append]; omega)
  refine Option.bind_eq_some_iff.mpr ⟨_, argument, ?_⟩
  refine Option.bind_eq_some_iff.mpr ⟨_, expected_self ";" rest, ?_⟩
  exact Option.bind_eq_some_iff.mpr ⟨_, next steps (by omega), rfl⟩

theorem clauses_importDefault {binding source : String} {others : List Clause}
    {after : List Lexeme} (free : binding ∉ reservedWords)
    (next : Yields clauses 1 rest (others, after)) :
    Yields clauses 1 (.word "import" :: .word binding :: .word "from" :: .string source ::
      .mark ";" :: rest) (.importDefault binding source :: others, after) := by
  refine .of_succ fun steps enough => ?_
  simp only [List.length_cons] at enough
  refine Option.bind_eq_some_iff.mpr ⟨_, name?_of_free free, ?_⟩
  refine Option.bind_eq_some_iff.mpr ⟨_, expected_self ";" rest, ?_⟩
  exact Option.bind_eq_some_iff.mpr ⟨_, next steps (by omega), rfl⟩

theorem clauses_exportDefaultFunction {opening : List Lexeme} {name : String}
    {names : List String} {body others : List Clause} {after : List Lexeme}
    (free : name ∉ reservedWords)
    (given : ∀ rest, params (opening ++ rest) = some (names, rest))
    (inside : Yields clauses 1 (tokens ++ .mark "\x7d" :: rest) (body, .mark "\x7d" :: rest))
    (next : Yields clauses 1 rest (others, after)) :
    Yields clauses 1 (.word "export" :: .word "default" :: .word "function" :: .word name ::
      (opening ++ .mark "\x7b" :: (tokens ++ .mark "\x7d" :: rest)))
      (.exportDefaultFunction name names body :: others, after) := by
  refine .of_succ fun steps enough => ?_
  simp only [List.length_cons, List.length_append] at enough
  have inside := inside steps (by simp only [List.length_cons, List.length_append]; omega)
  refine Option.bind_eq_some_iff.mpr ⟨_, name?_of_free free, ?_⟩
  refine Option.bind_eq_some_iff.mpr ⟨_, given _, ?_⟩
  refine Option.bind_eq_some_iff.mpr ⟨_, expected_self "\x7b" _, ?_⟩
  refine Option.bind_eq_some_iff.mpr ⟨_, inside, ?_⟩
  refine Option.bind_eq_some_iff.mpr ⟨_, expected_self "\x7d" rest, ?_⟩
  exact Option.bind_eq_some_iff.mpr ⟨_, next steps (by omega), rfl⟩

end Rules

theorem over_mark {mark : String} {rest : List Lexeme} : Over (.mark mark :: rest) := by
  intro text same
  cases same

end Reading

end RenderCompiler
