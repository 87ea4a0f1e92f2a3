import RenderCompiler.Proofs.Lowering.Bags
import RenderCompiler.Proofs.Script.Within

set_option autoImplicit false

namespace RenderCompiler

namespace Sketch

def construction? : Sketch → Option (List Sketch)
  | .call .customElement arguments => some arguments
  | _ => none

def constructions (sketch : Sketch) : List (List Sketch) :=
  sketch.buildCalls.filterMap construction?

theorem mem_constructions {sketch : Sketch} {arguments : List Sketch} :
    arguments ∈ sketch.constructions ↔ .call .customElement arguments ∈ sketch.built := by
  simp only [constructions, buildCalls, List.mem_filterMap, List.mem_filter]
  constructor
  · rintro ⟨call, ⟨member, -⟩, same⟩
    unfold construction? at same
    split at same
    · cases same
      exact member
    · cases same
  · intro member
    exact ⟨_, ⟨member, rfl⟩, rfl⟩

section Finished

variable (env : Lowering.Environment) (names : String → String)

theorem exprs_within {sketches : List Sketch} {inner outer : Expr}
    (parts : ∀ expr ∈ exprs env names sketches, expr ∈ outer.children)
    (inside : ∃ sketch ∈ sketches, inner.Within (sketch.expr env names)) : inner.Within outer := by
  obtain ⟨sketch, member, within⟩ := inside
  refine .part (parts _ ?_) within
  rw [exprs_eq_map]
  exact List.mem_map_of_mem member

mutual

theorem within_of_mem (sketch : Sketch) {part : Sketch} (member : part ∈ sketch.built) :
    (part.expr env names).Within (sketch.expr env names) := by
  cases sketch with
  | call primitive passed =>
    rcases List.mem_append.mp member with own | below
    · split at own
      next =>
        obtain rfl := List.mem_singleton.mp own
        exact .here
      next => cases own
    · exact exprs_within env names (fun _ part => List.mem_cons_of_mem _ part)
        (within_of_mem_list passed below)
  | iterate iterable item index body =>
    rcases List.mem_append.mp member with outside | each
    · exact .part (List.mem_cons_of_mem _ List.mem_cons_self) (within_of_mem iterable outside)
    · have inside := within_of_mem body each
      have result : (body.expr env names) ∈
          (Expr.function [item, index] [.returns (body.expr env names)]).children :=
        List.mem_cons_self
      exact .part (List.mem_cons_of_mem _ (List.mem_cons_of_mem _ List.mem_cons_self))
        (.part result inside)
  | array elements =>
    exact exprs_within env names (fun _ part => part) (within_of_mem_list elements member)
  | object properties =>
    rcases List.mem_cons.mp member with rfl | below
    · exact .here
    · obtain ⟨expr, part, inside⟩ := within_of_mem_fields properties below
      exact .part part inside
  | conditional test consequent alternate =>
    simp only [built_conditional, List.mem_append] at member
    rcases member with (first | second) | third
    · exact .part List.mem_cons_self (within_of_mem test first)
    · exact .part (List.mem_cons_of_mem _ List.mem_cons_self) (within_of_mem consequent second)
    · exact .part (List.mem_cons_of_mem _ (List.mem_cons_of_mem _ List.mem_cons_self))
        (within_of_mem alternate third)
  | not argument => exact .part List.mem_cons_self (within_of_mem argument member)
  | isTrue argument => exact .part List.mem_cons_self (within_of_mem argument member)
  | or left right =>
    rcases List.mem_append.mp member with first | second
    · exact .part List.mem_cons_self (within_of_mem left first)
    · exact .part (List.mem_cons_of_mem _ List.mem_cons_self) (within_of_mem right second)
  | _ => cases member

theorem within_of_mem_list (sketches : List Sketch) {part : Sketch}
    (member : part ∈ listBuilt sketches) :
    ∃ sketch ∈ sketches, (part.expr env names).Within (sketch.expr env names) := by
  cases sketches with
  | nil => cases member
  | cons sketch rest =>
    rcases List.mem_append.mp member with here | later
    · exact ⟨sketch, List.mem_cons_self, within_of_mem sketch here⟩
    · obtain ⟨found, among, inside⟩ := within_of_mem_list rest later
      exact ⟨found, List.mem_cons_of_mem _ among, inside⟩

theorem within_of_mem_fields (fields : List (String × Sketch)) {part : Sketch}
    (member : part ∈ fieldBuilt fields) :
    ∃ expr ∈ (exprProperties env names fields).map (·.2), (part.expr env names).Within expr := by
  cases fields with
  | nil => cases member
  | cons field rest =>
    obtain ⟨name, sketch⟩ := field
    rcases List.mem_append.mp member with here | later
    · exact ⟨_, List.mem_cons_self, within_of_mem sketch here⟩
    · obtain ⟨found, among, inside⟩ := within_of_mem_fields rest later
      exact ⟨found, List.mem_cons_of_mem _ among, inside⟩

end

end Finished

end Sketch

namespace Node

def construction? : Node → Option (List Sketch)
  | .custom el _ component _ => some [.string el.tag, .component component]
  | _ => none

def constructed (nodes : List Node) : List (List Sketch) := nodes.filterMap construction?

open Lowering Sketch

theorem call?_construction (place : Place) :
    (place.call?.bind Sketch.construction?).map List.dropLast = place.node.construction? := by
  obtain ⟨node, scope, given⟩ := place
  cases node <;> rfl

theorem sketch_constructions (node : Node) (scope : Scope) (given : Nat) :
    ((node.sketch scope given).constructions.map List.dropLast).Perm
      (constructed node.reached) := by
  have calls := (buildCalls_perm node scope given).filterMap Sketch.construction?
  refine (calls.map List.dropLast).trans (.of_eq ?_)
  rw [List.filterMap_filterMap, List.map_filterMap, constructed, ← node.places_nodes scope given,
    List.filterMap_map]
  exact List.filterMap_congr fun place _ => call?_construction place

end Node

theorem exists_of_dropLast_eq {arguments : List Sketch} {first second : Sketch}
    (same : arguments.dropLast = [first, second]) :
    ∃ third, arguments = [first, second, third] := by
  have some : arguments ≠ [] := by
    rintro rfl
    cases same
  have whole := List.dropLast_concat_getLast some
  rw [same] at whole
  exact ⟨_, whole.symm⟩

theorem construction_within (env : Lowering.Environment) (names : String → String) {sketch : Sketch}
    {nodes : List Node}
    (same : (sketch.constructions.map List.dropLast).Perm (Node.constructed nodes)) {el : Element}
    {children : List Node} {component : String} {content : List (String × List Node)}
    (member : .custom el children component content ∈ nodes) :
    ∃ data, (env.api.customElementCall el.tag (.identifier (names component)) data).Within
      (sketch.expr env names) := by
  have own : [.string el.tag, .component component] ∈ Node.constructed nodes :=
    List.mem_filterMap.mpr ⟨_, member, rfl⟩
  obtain ⟨arguments, among, shape⟩ := List.mem_map.mp (same.mem_iff.mpr own)
  obtain ⟨data, rfl⟩ := exists_of_dropLast_eq shape
  exact ⟨data.expr env names,
    Sketch.within_of_mem env names sketch (Sketch.mem_constructions.mp among)⟩

/-- A module imports each of its dependencies once, and exports the render function. The
dependencies are the declared components, and after them the others that are reached. The template
constructs the custom elements that it reaches, each by the import of its component. -/
theorem compileWith_imports (env : Lowering.Environment) (document : Document)
    (compilation : Compilation) (compiles : (compileWith env document).1 = .ok compilation) :
    let declared := document.metadata.dependencies
    let reached := document.root.reached
    let sketch := document.root.sketch [] 0
    ∃ names : String → String,
      compilation.script.body =
        compilation.dependencies.map
            (fun component => .importDefault (names component) component) ++
          [.exportDefaultFunction env.api.functionName env.api.params
            [.returns (sketch.expr env names)]] ∧
      compilation.dependencies =
        declared.eraseDups ++ ((components reached).filter (· ∉ declared)).eraseDups ∧
      compilation.dependencies.Nodup ∧ (compilation.dependencies.map names).Nodup ∧
      (sketch.constructions.map List.dropLast).Perm (Node.constructed reached) ∧
      ∀ el children component content, .custom el children component content ∈ reached →
        component ∈ compilation.dependencies ∧
        ∃ data, (env.api.customElementCall el.tag (.identifier (names component)) data).Within
          (sketch.expr env names) := by
  intro declared reached sketch
  obtain rfl := eq_of_compiles env document compiles
  have sound := document.sound_finalImports
  have entries := sound.entries_eq
  have constructs := Node.sketch_constructions document.root [] 0
  have order : document.finalImports.specifiers =
      declared.eraseDups ++ ((components reached).filter (· ∉ declared)).eraseDups := by
    have added := ImportTable.specifiers_registerAll document.metadata.imports (components reached)
    simp only [Metadata.imports, ImportTable.specifiers_ofSpecifiers, List.mem_eraseDups] at added
    exact added
  refine ⟨document.finalImports.nameOf, ?_, order, sound.apart, ?_, constructs, ?_⟩
  · simp only [assemble, entries, List.map_map]
    rfl
  · have distinct := sound.distinct
    rw [ImportTable.locals, entries, List.map_map] at distinct
    exact distinct
  · intro el children component content member
    have used : component ∈ components reached := List.mem_filterMap.mpr ⟨_, member, rfl⟩
    obtain ⟨name, named⟩ :=
      ImportTable.local?_registerAll_of_mem document.metadata.imports used
    exact ⟨ImportTable.mem_specifiers_of_local? named, construction_within env _ constructs member⟩

def nestedCard : Document where
  root := .custom { tag := "x-card" } [] "cards/card"
    [("icon", [.custom { tag := "x-star" } [] "icons/star" []])]
  metadata := { dependencies := ["lists/list", "lists/list"] }

theorem nestedCard_imports :
    ∃ compilation, (compileWith (.ofApi {}) nestedCard).1 = .ok compilation ∧
      compilation.dependencies = ["lists/list", "icons/star", "cards/card"] ∧
      ∃ names : String → String, compilation.script.body =
        [.importDefault (names "lists/list") "lists/list",
          .importDefault (names "icons/star") "icons/star",
          .importDefault (names "cards/card") "cards/card",
          .exportDefaultFunction "tmpl" ["$api", "$cmp", "$slotset", "$ctx"]
            [.returns ((nestedCard.root.sketch [] 0).expr (.ofApi {}) names)]] := by
  have compiles := compileWith_eq_ok (.ofApi {}) nestedCard (by decide)
  obtain ⟨names, body, order, -⟩ := compileWith_imports (.ofApi {}) nestedCard _ compiles
  have three : nestedCard.finalImports.specifiers = ["lists/list", "icons/star", "cards/card"] :=
    order.trans (by decide)
  exact ⟨_, compiles, three, names, by rw [body, three]; rfl⟩

end RenderCompiler
