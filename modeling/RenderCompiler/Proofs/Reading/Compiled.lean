import RenderCompiler.Proofs.Lowering.Closure
import RenderCompiler.Proofs.Lowering.Makeup
import RenderCompiler.Proofs.Reading.Derived
import RenderCompiler.Proofs.Reading.Printed
import RenderCompiler.Proofs.Template.Decoding

set_option autoImplicit false

namespace RenderCompiler

namespace ImportTable

theorem isNamePart_of_isAlphanumeric {c : Char} (alphanumeric : isAlphanumeric c = true) :
    isNamePart c = true := by
  rw [isAlphanumeric, Bool.or_eq_true] at alphanumeric
  rcases alphanumeric with letter | digit
  · rw [isNamePart, isNameStart, letter, Bool.true_or, Bool.true_or, Bool.true_or]
  · rw [isNamePart, digit, Bool.or_true]

theorem IsPlain.isBareName {name : String} (plain : IsPlain name) : isBareName name = true := by
  obtain ⟨rest, rfl, letters⟩ := plain
  rw [RenderCompiler.isBareName, String.toList_ofList, Bool.and_eq_true, List.all_eq_true]
  exact ⟨rfl, fun c member => isNamePart_of_isAlphanumeric (letters c member)⟩

end ImportTable

namespace Reading

theorem free_of_underscore {name : String} (first : name.toList.head? = some '_') :
    name ∉ reservedWords := by
  intro reserved
  have letters : ∀ word ∈ reservedWords, word.toList.head? ≠ some '_' := by decide
  exact letters name reserved first

structure Customary (holds : String → Prop) : Prop where
  param : ∀ name ∈ RuntimeApi.params {}, holds name
  function : holds (RuntimeApi.functionName {})
  underscored : ∀ name, isBareName name = true → name.toList.head? = some '_' → holds name

theorem customary_isName (alphabet : Alphabet) : Customary alphabet.IsName where
  param := by
    intro name member
    have bare : ∀ name ∈ RuntimeApi.params {}, isBareName name = true := by decide
    exact isName_of_isBareName (bare name member)
  function := isName_of_isBareName rfl
  underscored := fun name bare _ => isName_of_isBareName bare

theorem customary_free : Customary (· ∉ reservedWords) where
  param := by decide
  function := by decide
  underscored := fun _ _ first => free_of_underscore first

theorem compiled_madeOf {parts : Parts} {document : Document} {compilation : Compilation}
    (compiles : (compile {} document).1 = .ok compilation)
    (unkeyed : keys document.root.reached = [])
    (customary : Customary parts.name)
    (loops : ∀ name ∈ localNames document.root.reached, parts.name name)
    (number : ∀ value ∈ numbers document.root.reached, parts.number value)
    (slot : ∀ slot : UInt32, parts.number (.ofUInt32 slot))
    (object : ∀ object : Expr, ¬ object.IsNumber → parts.object object) :
    Stmt.AllMadeOf parts compilation.script.body := by
  have sound := document.sound_finalImports
  have imports : ∀ name ∈ document.finalImports.locals, parts.name name := fun name member =>
    customary.underscored name (sound.plain member).isBareName (sound.underscored name member)
  have suit : parts.Suit {} document.finalImports.nameOf document.root.reached :=
    { param := customary.param
      component := fun specifier member =>
        imports _ (nameOf_mem_locals document.metadata.imports member)
      loop := loops
      number := number
      slot := slot
      object := object
      keyed := by
        rw [unkeyed]
        exact fun key none => by cases none }
  exact compile_madeOf compiles suit customary.function imports

/-- A compiled module is read back as the script that it was printed from. Of numbers it is asked
that they are finite, as they are if the document is read from text. -/
theorem read_compiled (alphabet : Alphabet) (document : Document) (compilation : Compilation)
    (compiles : (compile {} document).1 = .ok compilation)
    (unkeyed : keys document.root.reached = [])
    (names : ∀ name ∈ localNames document.root.reached,
      alphabet.IsName name ∧ name ∉ reservedWords)
    (origin : document.root.IsFinite ∨ ∃ text, Decoder.document.run text = .ok document) :
    read alphabet compilation.code.toList = some (Stmt.clauses compilation.script.body) := by
  have finite : document.root.IsFinite := by
    rcases origin with finite | ⟨text, ran⟩
    · exact finite
    · exact (Decoder.isProper_run ran).isFinite
  have legible : Stmt.AllMadeOf (legibleParts alphabet) compilation.script.body :=
    compiled_madeOf compiles unkeyed (customary_isName alphabet)
      (fun name member => (names name member).1) finite Binary64.isFinite_ofUInt32
      (fun _ apart => apart)
  have spoken : Stmt.AllMadeOf spokenParts compilation.script.body :=
    compiled_madeOf compiles unkeyed customary_free (fun name member => (names name member).2)
      (fun _ _ => trivial) (fun _ => trivial) (fun _ _ => trivial)
  rw [read, Compilation.code, lex_print compilation.script legible]
  exact parse_print compilation.script spoken

-- Strings that would end a literal or a statement, if they were written as they are.
def hostile : Node :=
  .element
    { tag := "p'"
      loop := some { path := ⟨"it's", ["new\nline"]⟩, item := "each" }
      attrs := some [("'); alert('", .text "\\'\u2028"), ("size", .number (.ofInt (-2)))]
      on := some [("click", ⟨"each", ["*/"]⟩)] }
    [.custom {} [] "../it's/x-card.js" [("a'b", [.text (.bound ⟨"$x", ["return"]⟩)])]]

theorem hostile_read :
    ∃ compilation, (compile {} { root := hostile }).1 = .ok compilation ∧
      read .ascii compilation.code.toList = some (Stmt.clauses compilation.script.body) := by
  have compiles := compileWith_eq_ok (.ofApi {}) { root := hostile } (by decide)
  have finite : ∀ number ∈ numbers hostile.reached, number.isFinite = true := by decide
  have names : ∀ name ∈ localNames hostile.reached,
      isBareName name = true ∧ name ∉ reservedWords := by decide
  exact ⟨_, compiles, read_compiled .ascii { root := hostile } _ compiles rfl
    (fun name member => ⟨isName_of_isBareName (names name member).1, (names name member).2⟩)
    (.inl finite)⟩

end Reading

end RenderCompiler
