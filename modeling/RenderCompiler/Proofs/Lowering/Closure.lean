import RenderCompiler.Proofs.Lowering.Uses

set_option autoImplicit false

namespace RenderCompiler

def Expr.IsClosed (bound : List String) (expr : Expr) : Prop :=
  ∀ occurrence ∈ expr.occurrences [], occurrence.name ∈ bound ∨ occurrence.IsCaptured

instance (bound : List String) (expr : Expr) : Decidable (expr.IsClosed bound) :=
  inferInstanceAs (Decidable (∀ occurrence ∈ expr.occurrences [],
    occurrence.name ∈ bound ∨ occurrence.IsCaptured))

/-- A loop name is read outside of every function that has it as a parameter. -/
def Use.IsStray (use : Use) : Prop :=
  ∃ name, use.provenance = .loopName name ∧ ∀ params ∈ use.around, name ∉ params

def Use.IsResolved (imported : List String) (use : Use) : Prop :=
  match use.provenance with
  | .constructor component => component ∈ imported
  | .copied _ => False
  | _ => True

def Scope.IsCovered (scope : Scope) (around : List (List String)) : Prop :=
  ∀ name ∈ scope, ∃ params ∈ around, name ∈ params

theorem pervasive_resolved {nodes : List Node} (unkeyed : keys nodes = []) :
    Pervasive (Use.IsResolved (components nodes)) (fun _ _ => True) nodes where
  parameter := by
    intro provenance member scope around known
    simp only [List.mem_cons, List.not_mem_nil, or_false] at member
    rcases member with rfl | rfl | rfl <;> trivial
  constructor := fun component member scope around known => member
  read := fun name scope around member known => trivial
  copied := by
    intro key member
    rw [unkeyed] at member
    cases member
  inside := fun loop member scope around known => trivial
  below := fun loop member scope around known => trivial

theorem pervasive_not_stray {nodes : List Node} (unlooped : slotLoops nodes = []) :
    Pervasive (fun use => ¬ use.IsStray) Scope.IsCovered nodes where
  parameter := by
    intro provenance member scope around covered stray
    obtain ⟨name, same, -⟩ := stray
    cases same
    simp at member
  constructor := by
    intro component member scope around covered stray
    obtain ⟨name, same, -⟩ := stray
    cases same
  read := by
    intro name scope around member covered stray
    obtain ⟨other, same, apart⟩ := stray
    cases same
    obtain ⟨params, within, bound⟩ := covered name member
    exact apart params within bound
  copied := by
    intro key member scope around covered use copied stray
    obtain ⟨name, same, -⟩ := stray
    obtain ⟨occurrence, -, rfl⟩ := List.mem_map.mp copied
    cases same
  inside := by
    intro loop member scope around covered name within
    rw [Lowering.innerScope, List.mem_append] at within
    rcases within with outer | own
    · obtain ⟨params, among, bound⟩ := covered name outer
      exact ⟨params, List.mem_cons_of_mem _ among, bound⟩
    · exact ⟨loop.names, List.mem_cons_self, own⟩
  below := by
    intro loop member
    rw [unlooped] at member
    cases member

theorem nameOf_mem_locals {imported : List String} (declared : ImportTable) {component : String}
    (member : component ∈ imported) :
    (declared.registerAll imported).nameOf component ∈ (declared.registerAll imported).locals := by
  obtain ⟨name, named⟩ := ImportTable.local?_registerAll_of_mem declared member
  rw [ImportTable.names_nameOf _ component name named]
  exact ImportTable.mem_locals_of_local? named

section Bound

variable {root : Expr} {imports : ImportTable} {uses : List Use}
  (occurrences : root.occurrences [] = uses.map (Use.occurrence {} imports.nameOf))

theorem captured_of_not_stray {use : Use} {name : String}
    (read : use.provenance = .loopName name) (kept : ¬ use.IsStray) :
    (use.occurrence {} imports.nameOf).IsCaptured := by
  by_cases bound : ∃ params ∈ use.around, name ∈ params
  · obtain ⟨params, member, within⟩ := bound
    refine ⟨params, member, ?_⟩
    rw [Use.occurrence, read]
    exact within
  · exact absurd ⟨name, read, fun params member within => bound ⟨params, member, within⟩⟩ kept

theorem not_captured_of_stray {use : Use} (stray : use.IsStray) :
    ¬ (use.occurrence {} imports.nameOf).IsCaptured := by
  obtain ⟨name, read, apart⟩ := stray
  rintro ⟨params, member, within⟩
  rw [Use.occurrence, read] at within
  exact apart params member within

include occurrences

theorem isClosed_iff {imported : List String} (resolved : ∀ use ∈ uses, use.IsResolved imported)
    (named : ∀ component ∈ imported, imports.nameOf component ∈ imports.locals) :
    root.IsClosed (RuntimeApi.params {} ++ imports.locals) ↔
      ∀ use ∈ uses, use.IsStray →
        use.provenance.name {} imports.nameOf ∈ RuntimeApi.params {} ++ imports.locals := by
  rw [Expr.IsClosed, occurrences]
  constructor
  · intro closed use member stray
    rcases closed _ (List.mem_map_of_mem member) with bound | captured
    · exact bound
    · exact absurd captured (not_captured_of_stray stray)
  · intro bound occurrence member
    obtain ⟨use, asked, rfl⟩ := List.mem_map.mp member
    have resolved := resolved use asked
    -- A use that is not stray is captured if it is of a loop name, and of a name at the top if not.
    by_cases stray : use.IsStray
    · exact .inl (bound use asked stray)
    · cases given : use.provenance with
      | loopName name => exact .inr (captured_of_not_stray given stray)
      | constructor component =>
        rw [Use.IsResolved, given] at resolved
        refine .inl (List.mem_append_right _ ?_)
        rw [Use.occurrence, given]
        exact named component resolved
      | copied name =>
        rw [Use.IsResolved, given] at resolved
        exact resolved.elim
      | _ =>
        refine .inl (List.mem_append_left _ ?_)
        rw [Use.occurrence, given]
        simp [Provenance.name, RuntimeApi.params]

end Bound

/-- A compiled template without keys is closed just when its stray loop names happen to be bound,
and there are none of these unless a slot has a loop. -/
theorem compile_isClosed_iff (document : Document) (compilation : Compilation)
    (compiles : (compile {} document).1 = .ok compilation)
    (unkeyed : keys document.root.reached = []) :
    ∃ (root : Expr) (imports : ImportTable) (uses : List Use),
      compilation.script = assemble root imports {} ∧
      root.occurrences [] = uses.map (Use.occurrence {} imports.nameOf) ∧
      (∀ use, use ∈ uses ↔ use ∈ document.root.uses [] []) ∧
      (root.IsClosed (RuntimeApi.params {} ++ imports.locals) ↔
        ∀ use ∈ uses, use.IsStray →
          use.provenance.name {} imports.nameOf ∈ RuntimeApi.params {} ++ imports.locals) ∧
      (slotLoops document.root.reached = [] →
        root.IsClosed (RuntimeApi.params {} ++ imports.locals) ∧
        ∀ use ∈ uses, ∀ name, use.provenance = .loopName name →
          (use.occurrence {} imports.nameOf).IsCaptured) := by
  obtain ⟨root, uses, script, occurrences, asked⟩ := compile_uses {} document compiles
  have resolved : ∀ use ∈ uses, use.IsResolved (components document.root.reached) := by
    intro use member
    exact (pervasive_resolved unkeyed).uses document.root [] [] trivial use ((asked use).mp member)
  have closed := isClosed_iff occurrences resolved fun component member =>
    nameOf_mem_locals document.metadata.imports member
  refine ⟨root, document.finalImports, uses, script, occurrences, asked, closed, ?_⟩
  intro unlooped
  have kept : ∀ use ∈ uses, ¬ use.IsStray := by
    intro use member
    exact (pervasive_not_stray unlooped).uses document.root [] [] (by simp [Scope.IsCovered]) use
      ((asked use).mp member)
  constructor
  · exact closed.mpr fun use member stray => absurd stray (kept use member)
  · exact fun use member name read => captured_of_not_stray read (kept use member)

theorem gallery_isClosed_iff :
    ∃ compilation, (compile {} { root := .gallery }).1 = .ok compilation ∧
      ∃ (root : Expr) (imports : ImportTable) (uses : List Use),
        compilation.script = assemble root imports {} ∧
        root.occurrences [] = uses.map (Use.occurrence {} imports.nameOf) ∧
        (∀ use, use ∈ uses ↔ use ∈ Node.gallery.uses [] []) ∧
        (root.IsClosed (RuntimeApi.params {} ++ imports.locals) ↔
          ∀ use ∈ uses, use.IsStray →
            use.provenance.name {} imports.nameOf ∈ RuntimeApi.params {} ++ imports.locals) ∧
        (slotLoops Node.gallery.reached = [] →
          root.IsClosed (RuntimeApi.params {} ++ imports.locals) ∧
          ∀ use ∈ uses, ∀ name, use.provenance = .loopName name →
            (use.occurrence {} imports.nameOf).IsCaptured) := by
  have compiles := compileWith_eq_ok (.ofApi {}) { root := .gallery } (by decide)
  exact ⟨_, compiles, compile_isClosed_iff { root := .gallery } _ compiles rfl⟩

def loopedSlot : Node :=
  .slot { loop := some { path := ⟨"items", []⟩ } } [.text (.bound ⟨"item", []⟩)] ""

theorem loopedSlot_not_isClosed :
    keys loopedSlot.reached = [] ∧
      ∃ root, (compile {} { root := loopedSlot }).1.map Compilation.script =
        .ok (assemble root {} {}) ∧ ¬ root.IsClosed (RuntimeApi.params {}) :=
  ⟨rfl, .or (RuntimeApi.slotContent {} "") (.array [RuntimeApi.textCall {} (.identifier "item")]),
    rfl, by decide⟩

end RenderCompiler
