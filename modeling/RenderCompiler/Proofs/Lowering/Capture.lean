import RenderCompiler.Proofs.Lowering.Uses

set_option autoImplicit false

namespace RenderCompiler

-- Outside of all loops, the identifier stands for a parameter of the render function or for the
-- component, by an import that no parameter hides.
def Provenance.IsProvided (imports : ImportTable) : Provenance → Prop
  | .constructor specifier =>
    (specifier, imports.nameOf specifier) ∈ imports.entries ∧
      imports.nameOf specifier ∉ RuntimeApi.params {}
  | provenance => provenance.name {} imports.nameOf ∈ RuntimeApi.params {}

-- What lowering writes on its own account has only loops of these nodes around it, and constructs
-- only their components.
def Use.IsWithin (nodes : List Node) (use : Use) : Prop :=
  use.provenance.IsGenerated →
    (∀ params ∈ use.around, ∃ loop ∈ repeats nodes, params = loop.names) ∧
      ∀ component, use.provenance = .constructor component → component ∈ components nodes

theorem pervasive_within (nodes : List Node) :
    Pervasive (Use.IsWithin nodes)
      (fun _ around => ∀ params ∈ around, ∃ loop ∈ repeats nodes, params = loop.names) nodes where
  parameter := by
    intro provenance member scope around within generated
    refine ⟨within, fun component same => ?_⟩
    simp only at same
    simp [same] at member
  constructor := by
    intro component member scope around within generated
    refine ⟨within, fun other same => ?_⟩
    cases same
    exact member
  read := fun name scope around member within generated => generated.elim
  copied := by
    intro key member scope around within use copied generated
    obtain ⟨occurrence, found, rfl⟩ := List.mem_map.mp copied
    exact generated.elim
  inside := by
    intro loop member scope around within params among
    rcases List.mem_cons.mp among with rfl | outer
    · exact ⟨loop, member, rfl⟩
    · exact within params outer
  below := fun loop member scope around within => within

theorem isProvided {imports : ImportTable} (sound : imports.Sound) {provenance : Provenance}
    (generated : provenance.IsGenerated)
    (imported : ∀ component, provenance = .constructor component →
      ∃ name, imports.local? component = some name) :
    provenance.IsProvided imports := by
  cases provenance with
  | loopName name => exact generated.elim
  | copied name => exact generated.elim
  | constructor component =>
    obtain ⟨name, named⟩ := imported component rfl
    have same := imports.names_nameOf component name named
    have member := ImportTable.mem_locals_of_local? named
    rw [Provenance.IsProvided, same]
    exact ⟨ImportTable.mem_of_lookup_eq_some named, sound.not_param member⟩
  | _ => simp [Provenance.IsProvided, Provenance.name, RuntimeApi.params]

/-- What lowering writes on its own account stands for what it is meant to stand for, unless a loop
around it has a name like it. -/
theorem compile_isProvided (document : Document) (compilation : Compilation)
    (compiles : (compile {} document).1 = .ok compilation) :
    ∃ (root : Expr) (imports : ImportTable) (uses : List Use),
      compilation.script = assemble root imports {} ∧
      imports.locals.Nodup ∧
      root.occurrences [] = uses.map (Use.occurrence {} imports.nameOf) ∧
      (∀ use, use ∈ uses ↔ use ∈ document.root.uses [] []) ∧
      ∀ use ∈ uses, use.provenance.IsGenerated →
        use.provenance.IsProvided imports ∧
        ((use.occurrence {} imports.nameOf).IsCaptured →
          ∃ loop ∈ repeats document.root.reached,
            loop.names ∈ use.around ∧ use.provenance.name {} imports.nameOf ∈ loop.names) := by
  obtain ⟨root, uses, script, occurrences, asked⟩ := compile_uses {} document compiles
  have sound : document.finalImports.Sound :=
    (ImportTable.Sound.ofSpecifiers _).registerAll (components document.root.reached)
  refine ⟨root, document.finalImports, uses, script, sound.distinct, occurrences, asked, ?_⟩
  intro use member generated
  obtain ⟨around, imported⟩ := (pervasive_within document.root.reached).uses document.root [] []
    (by simp) use ((asked use).mp member) generated
  constructor
  · refine isProvided sound generated fun component same => ?_
    exact ImportTable.local?_registerAll_of_mem _ (imported component same)
  · rintro ⟨params, among, captured⟩
    obtain ⟨loop, repeated, rfl⟩ := around params among
    exact ⟨loop, repeated, among, captured⟩

theorem gallery_isProvided :
    ∃ compilation, (compile {} { root := .gallery }).1 = .ok compilation ∧
      ∃ (root : Expr) (imports : ImportTable) (uses : List Use),
        compilation.script = assemble root imports {} ∧
        imports.locals.Nodup ∧
        root.occurrences [] = uses.map (Use.occurrence {} imports.nameOf) ∧
        (∀ use, use ∈ uses ↔ use ∈ Node.gallery.uses [] []) ∧
        ∀ use ∈ uses, use.provenance.IsGenerated →
          use.provenance.IsProvided imports ∧
          ((use.occurrence {} imports.nameOf).IsCaptured →
            ∃ loop ∈ repeats Node.gallery.reached,
              loop.names ∈ use.around ∧ use.provenance.name {} imports.nameOf ∈ loop.names) := by
  have compiles := compileWith_eq_ok (.ofApi {}) { root := .gallery } (by decide)
  exact ⟨_, compiles, compile_isProvided { root := .gallery } _ compiles⟩

def capturing : Node :=
  .element { tag := "p", loop := some { path := ⟨"items", []⟩, item := "$api" } } []

theorem capturing_isCaptured :
    ∃ root, (compile {} { root := capturing }).1.map Compilation.script =
        .ok (assemble root {} {}) ∧
      ∃ use ∈ capturing.uses [] [], use.provenance.IsGenerated ∧
        use.occurrence {} (ImportTable.nameOf {}) ∈ root.occurrences [] ∧
        (use.occurrence {} (ImportTable.nameOf {})).IsCaptured :=
  ⟨RuntimeApi.iterateCall {} (.member (.identifier "$cmp") "items") "$api" "index"
    (RuntimeApi.elementCall {} "p" (.object []) (.array [])), rfl,
    ⟨.runtime, [["$api", "index"]]⟩, by decide, trivial, by decide, by decide⟩

end RenderCompiler
