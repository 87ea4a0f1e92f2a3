import RenderCompiler.Command.Rendering
import RenderCompiler.Proofs.Lowering.Makeup
import RenderCompiler.Proofs.Template.Written

set_option autoImplicit false

namespace RenderCompiler

def Script.IsFinite (script : Script) : Prop := Stmt.AllMadeOf finiteParts script.body

theorem finiteParts_suit {api : RuntimeApi} {names : String → String} {root : Node}
    (proper : root.IsProper) : finiteParts.Suit api names root.reached where
  param := fun _ _ => trivial
  component := fun _ _ => trivial
  loop := fun _ _ => trivial
  number := proper.isFinite
  slot := Binary64.isFinite_ofUInt32
  object := fun _ _ => trivial
  keyed := proper.keys

theorem compile_isFinite {api : RuntimeApi} {document : Document} {compilation : Compilation}
    (compiles : (compile api document).1 = .ok compilation) (proper : document.root.IsProper) :
    compilation.script.IsFinite :=
  compile_madeOf compiles (finiteParts_suit proper) trivial fun _ _ => trivial

theorem renderDocument_eq_ok {configuration : Configuration} {text : String} {document : Document}
    {compilation : Compilation} (ran : Decoder.document.run text = .ok document)
    (compiles : (compile configuration.runtime document).1 = .ok compilation)
    (emission : Emission) :
    (renderDocument configuration emission text).1 = .ok (compilation.emit emission) := by
  unfold renderDocument
  rw [ran]
  cases compiled : compile configuration.runtime document with
  | mk result journal =>
    rw [compiled] at compiles
    cases compiles
    simp only [compiled]

/-- Whatever the configuration, the tree that is written for a document is read back as the compiled
script, and printing that gives the source that is written for the document. Any script whose
numbers are finite is read back from its text. It is asked that the numbers that are written are
read back, and that nesting has no limit. -/
theorem emissions_agree :
    (∀ (configuration : Configuration) (text : String) (document : Document)
        (compilation : Compilation), Decoder.document.run text = .ok document →
      (compile configuration.runtime document).1 = .ok compilation →
      (∀ n ∈ compilation.script.toJson.numbers, n.IsFinite → n.ReadsBack) →
      ∃ tree source, (renderDocument configuration .tree text).1 = .ok tree ∧
        (renderDocument configuration .source text).1 = .ok source ∧
        Decoder.script.runWithin none tree = .ok compilation.script ∧
        compilation.script.print = source) ∧
    ∀ script : Script, script.IsFinite →
      (∀ n ∈ script.toJson.numbers, n.IsFinite → n.ReadsBack) →
      Decoder.script.runWithin none script.toJson.text = .ok script ∧
        Decoder.script.runWithin none script.toJson.prettyText = .ok script := by
  constructor
  · intro configuration text document compilation ran compiles back
    have finite := compile_isFinite compiles (Decoder.isProper_run ran)
    obtain ⟨-, -, tree⟩ := Decoder.script_runWithin compilation.script finite back
    exact ⟨_, _, renderDocument_eq_ok ran compiles .tree, renderDocument_eq_ok ran compiles .source,
      tree, rfl⟩
  · intro script finite back
    obtain ⟨compact, indented, -⟩ := Decoder.script_runWithin script finite back
    exact ⟨compact, indented⟩

def buttonRow : Json :=
  .ofKind "element"
    [("tag", .string "ul"),
      ("children", .array [.object
        [("for", .object
            [("expression", .string "rows"),
              ("key", .ofKind "number-literal"
                [("value", .number (.real (Binary64.ofRatio false 1 2)))])]),
          ("type", .string "custom"),
          ("component", .string "ui/button"), ("on", .object [("click", .string "item.press")]),
          ("props", .object [("width", .number (.real (Binary64.ofRatio false 5 2)))])]])]

def rowText : String := (Json.object [("root", buttonRow)]).text

def rowDocument : Document where
  root := .element { tag := "ul" }
    [.custom
      { loop := some { path := ⟨"rows", []⟩, key := some (.number (Binary64.ofRatio false 1 2)) }
        props := some [("width", .number (Binary64.ofRatio false 5 2))]
        on := some [("click", ⟨"item", ["press"]⟩)] }
      [] "ui/button" []]

theorem rowDocument_run : Decoder.document.run rowText = .ok rowDocument := by
  have readable : (Json.object [("root", buttonRow)]).Readable := by
    refine (Json.each_iff _ _).mpr ⟨by decide, ?_⟩
    unfold Json.ReadsAsItself
    decide
  have within :
      Json.Within (some Json.nestingLimit) (Json.object [("root", buttonRow)]).height := by
    rintro limit ⟨⟩
    decide
  exact (Decoder.run_written rfl readable within).1

def renamedRuntime : Configuration where
  runtime := { apiParam := "api", customElement := "custom" }

theorem buttonRow_emissions_agree :
    ∃ compilation tree source,
      (compile renamedRuntime.runtime rowDocument).1 = .ok compilation ∧
      (renderDocument renamedRuntime .tree rowText).1 = .ok tree ∧
      (renderDocument renamedRuntime .source rowText).1 = .ok source ∧
      Decoder.script.runWithin none tree = .ok compilation.script ∧
      compilation.script.print = source ∧
      Decoder.script.runWithin none compilation.script.toJson.text = .ok compilation.script := by
  have compiles := compileWith_eq_ok (.ofApi renamedRuntime.runtime) rowDocument (by decide)
  have finite := compile_isFinite compiles (Decoder.isProper_run rowDocument_run)
  have back : ∀ n ∈ (assemble ((rowDocument.root.sketch [] 0).expr
      (.ofApi renamedRuntime.runtime) rowDocument.finalImports.nameOf)
      rowDocument.finalImports renamedRuntime.runtime).toJson.numbers, n.ReadsBack := by
    unfold JsonNumber.ReadsBack
    decide
  obtain ⟨tree, source, written, printed, read, same⟩ := emissions_agree.1 renamedRuntime rowText
    rowDocument _ rowDocument_run compiles fun n member _ => back n member
  have whole := emissions_agree.2 _ finite fun n member _ => back n member
  exact ⟨_, tree, source, compiles, written, printed, read, same, whole.1⟩

end RenderCompiler
