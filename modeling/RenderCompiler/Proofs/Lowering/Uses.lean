import RenderCompiler.Proofs.Lowering.Outcome
import RenderCompiler.Proofs.Template.Uses

set_option autoImplicit false

namespace RenderCompiler

def Provenance.name (api : RuntimeApi) (names : String → String) : Provenance → String
  | .runtime => api.apiParam
  | .component => api.componentParam
  | .slots => api.slotSetParam
  | .constructor specifier => names specifier
  | .loopName name => name
  | .copied name => name

def Use.occurrence (api : RuntimeApi) (names : String → String) (use : Use) : Occurrence :=
  ⟨use.provenance.name api names, use.around⟩

namespace Sketch

mutual

def uses (around : List (List String)) : Sketch → List Use
  | .string _ | .number _ | .boolean _ | .null => []
  | .verbatim expr => expr.copies around
  | .read path scope => path.uses scope around
  | .slot _ => [⟨.slots, around⟩]
  | .component specifier => [⟨.constructor specifier, around⟩]
  | .call _ arguments => ⟨.runtime, around⟩ :: listUses around arguments
  | .iterate iterable item index body =>
    ⟨.runtime, around⟩ :: iterable.uses around ++ body.uses ([item, index] :: around)
  | .array elements => listUses around elements
  | .object properties => propertyUses around properties
  | .conditional test consequent alternate =>
    test.uses around ++ consequent.uses around ++ alternate.uses around
  | .not argument => argument.uses around
  | .isTrue argument => argument.uses around
  | .or left right => left.uses around ++ right.uses around

def listUses (around : List (List String)) : List Sketch → List Use
  | [] => []
  | sketch :: rest => sketch.uses around ++ listUses around rest

def propertyUses (around : List (List String)) : List (String × Sketch) → List Use
  | [] => []
  | (_, sketch) :: rest => sketch.uses around ++ propertyUses around rest

end

section Expressions

variable (api : RuntimeApi) (names : String → String)

theorem occurrences_read (around : List (List String)) (path : Path) (scope : Scope) :
    (componentBinder api.componentParam path scope).occurrences around =
      (path.uses scope around).map (Use.occurrence api names) := by
  by_cases known : path.head ∈ scope
  · rw [componentBinder_local known, Expr.occurrences_members, Path.uses, if_pos known]
    rfl
  · rw [componentBinder_member known, Expr.occurrences_members, Path.uses, if_neg known]
    rfl

theorem occurrences_copies (around : List (List String)) (expr : Expr) :
    expr.occurrences around = (expr.copies around).map (Use.occurrence api names) := by
  rw [Expr.copies, List.map_map]
  exact (List.map_id _).symm

mutual

theorem occurrences_expr (sketch : Sketch) (around : List (List String)) :
    (sketch.expr (.ofApi api) names).occurrences around =
      (sketch.uses around).map (Use.occurrence api names) := by
  cases sketch with
  | string value => rfl
  | number value => rfl
  | boolean value => rfl
  | null => rfl
  | verbatim expr => exact occurrences_copies api names around expr
  | read path scope => exact occurrences_read api names around path scope
  | slot name => rfl
  | component specifier => rfl
  | call primitive arguments =>
    exact congrArg (⟨api.apiParam, around⟩ :: ·) (occurrences_exprs arguments around)
  | iterate iterable item index body =>
    have list := occurrences_expr iterable around
    have each := occurrences_expr body ([item, index] :: around)
    simp only [expr, RuntimeApi.iterateCall, RuntimeApi.primitive, Expr.occurrences,
      Expr.listOccurrences, Stmt.listOccurrences, Stmt.occurrences, List.append_nil, uses,
      List.map_cons, List.map_append, List.cons_append, List.nil_append] at list each ⊢
    rw [list, each]
    rfl
  | array elements => exact occurrences_exprs elements around
  | object properties => exact occurrences_exprProperties properties around
  | conditional test consequent alternate =>
    simp only [expr, Expr.occurrences, uses, List.map_append, occurrences_expr test around,
      occurrences_expr consequent around, occurrences_expr alternate around]
  | not argument => exact occurrences_expr argument around
  | isTrue argument =>
    simp only [expr, Expr.occurrences, uses, List.append_nil, occurrences_expr argument around]
  | or left right =>
    simp only [expr, Expr.occurrences, uses, List.map_append, occurrences_expr left around,
      occurrences_expr right around]

theorem occurrences_exprs (sketches : List Sketch) (around : List (List String)) :
    Expr.listOccurrences around (exprs (.ofApi api) names sketches) =
      (listUses around sketches).map (Use.occurrence api names) := by
  cases sketches with
  | nil => rfl
  | cons sketch rest =>
    simp only [exprs, Expr.listOccurrences, listUses, List.map_append,
      occurrences_expr sketch around, occurrences_exprs rest around]

theorem occurrences_exprProperties (properties : List (String × Sketch))
    (around : List (List String)) :
    Expr.propertyOccurrences around (exprProperties (.ofApi api) names properties) =
      (propertyUses around properties).map (Use.occurrence api names) := by
  cases properties with
  | nil => rfl
  | cons property rest =>
    obtain ⟨name, sketch⟩ := property
    simp only [exprProperties, Expr.propertyOccurrences, propertyUses, List.map_append,
      occurrences_expr sketch around, occurrences_exprProperties rest around]

end

end Expressions

theorem listUses_eq_flatMap (around : List (List String)) (sketches : List Sketch) :
    listUses around sketches = sketches.flatMap (uses around) := by
  induction sketches with
  | nil => rfl
  | cons sketch rest ih => rw [listUses, ih, List.flatMap_cons]

theorem propertyUses_eq_flatMap (around : List (List String)) (fields : List (String × Sketch)) :
    propertyUses around fields = fields.flatMap fun field => field.2.uses around := by
  induction fields with
  | nil => rfl
  | cons field rest ih => rw [propertyUses, ih, List.flatMap_cons]

section Data

variable (scope : Scope) (around : List (List String))

theorem uses_ofValue (value : Value) :
    (ofValue scope value).uses around = value.uses scope around := by
  cases value <;> rfl

theorem uses_ofAttribute (value : Value) :
    (ofAttribute scope value).uses around = value.uses scope around := by
  unfold ofAttribute
  split
  · rfl
  · exact uses_ofValue scope around value

theorem uses_ofEntries {α : Type} {make : α → Sketch} {each : α → List Use}
    (same : ∀ item, (make item).uses around = each item) (entries : Option (Entries α)) :
    (entries.toList.flatMap fun entries => (ofEntries make entries).uses around) =
      Entries.uses each entries := by
  cases entries with
  | none => rfl
  | some entries =>
    simp only [Option.toList_some, List.flatMap_singleton, ofEntries, uses,
      propertyUses_eq_flatMap, List.flatMap_map, same]
    rfl

theorem uses_ofHandlers (given : Nat) (handlers : Option (Entries Path)) :
    (handlers.toList.flatMap fun handlers => (ofHandlers scope given handlers).uses around) =
      Entries.uses (Path.handlerUses scope around) handlers := by
  cases handlers with
  | none => rfl
  | some handlers =>
    calc
      _ = (handlers.zipIdx given).flatMap fun entry => entry.1.2.handlerUses scope around := by
        simp only [Option.toList_some, List.flatMap_singleton, ofHandlers, uses,
          propertyUses_eq_flatMap, List.flatMap_map]
        rfl
      _ = ((handlers.zipIdx given).map Prod.fst).flatMap fun entry =>
            entry.2.handlerUses scope around := by
        rw [List.flatMap_map]
      _ = Entries.uses (Path.handlerUses scope around) (some handlers) := by
        rw [List.zipIdx_map_fst]
        rfl

theorem propertyUses_field {α : Type} (name : String) (make : α → Sketch) (value : Option α) :
    propertyUses around (field name make value) =
      value.toList.flatMap fun value => (make value).uses around := by
  cases value with
  | none => rfl
  | some value => simp [field, propertyUses]

theorem propertyUses_append (first others : List (String × Sketch)) :
    propertyUses around (first ++ others) =
      propertyUses around first ++ propertyUses around others := by
  simp only [propertyUses_eq_flatMap, List.flatMap_append]

theorem propertyUses_dataFields (given : Nat) (el : Element) :
    propertyUses around (dataFields scope given el) = el.uses scope around := by
  have classMap : (el.classMap.toList.flatMap fun classes =>
      (ofEntries (fun _ => boolean true) classes).uses around) = [] := by
    rw [uses_ofEntries around (fun _ => rfl) el.classMap, Entries.uses]
    simp [uses]
  simp only [dataFields, propertyUses_append, propertyUses_field, classMap, uses_ofValue,
    uses_ofHandlers, uses_ofEntries around (uses_ofValue scope around),
    uses_ofEntries around (uses_ofAttribute scope around), List.append_nil]
  rfl

theorem uses_ofTest (condition : Condition) :
    (ofTest scope condition).uses around = condition.path.uses scope around := by
  unfold ofTest
  split <;> rfl

theorem uses_gatedOn (condition : Option Condition) (sketch : Sketch) :
    (gatedOn scope condition sketch).uses around =
      condition.toList.flatMap (fun condition => condition.path.uses scope around) ++
        sketch.uses around := by
  cases condition with
  | none => rfl
  | some condition => simp [gatedOn, gated, uses, uses_ofTest]

theorem uses_repeatedOver (loop : Option Loop) (sketch : Sketch) :
    (repeatedOver scope loop sketch).uses around =
      loop.toList.flatMap (Loop.uses scope around) ++ sketch.uses (innerAround around loop) := by
  cases loop with
  | none => rfl
  | some loop => simp [repeatedOver, uses, Loop.uses, innerAround, Loop.names]

end Data

end Sketch

namespace Node

open Lowering Sketch

section Children

variable (around : List (List String)) (scope : Scope) (given : Nat)

mutual

theorem sketches_eq_nil_iff (node : Node) (scope : Scope) (given : Nat) :
    node.sketches scope given = [] ↔ node.silent = true := by
  cases node with
  | text value => simp [sketches, silent]
  | element el children => simp [sketches, silent]
  | slot el children name => simp [sketches, silent]
  | custom el children component content => simp [sketches, silent]
  | template el children =>
    rw [sketches, silent]
    cases flatten : anyYieldsList children with
    | true =>
      obtain ⟨joined, same, -⟩ := joined_of_anyYieldsList children (innerScope scope el.loop) given
        flatten
      rw [same]
      simp [SketchedChildren.template]
    | false =>
      have below := sketchesAll_eq_nil_iff children (innerScope scope el.loop) given
      cases looped : el.loop with
      | some loop => simp [SketchedChildren.of, flatten, SketchedChildren.template, looped]
      | none =>
        rw [looped] at below
        cases gate : el.condition with
        | none => simp [SketchedChildren.of, flatten, SketchedChildren.template, looped, gate]
        | some condition =>
          simpa [SketchedChildren.of, flatten, SketchedChildren.template, looped, gate] using below

theorem sketchesAll_eq_nil_iff (nodes : List Node) (scope : Scope) (given : Nat) :
    sketchesAll scope given nodes = [] ↔ allSilent nodes = true := by
  cases nodes with
  | nil => simp [sketchesAll, allSilent]
  | cons node rest =>
    rw [sketchesAll, allSilent, List.append_eq_nil_iff, Bool.and_eq_true,
      sketches_eq_nil_iff node scope given, sketchesAll_eq_nil_iff rest scope _]

end

theorem uses_whole (children : List Node) :
    (SketchedChildren.of children (sketchesAll scope given children)).whole.uses around =
      flattenUses around children ++ listUses around (sketchesAll scope given children) := by
  cases flatten : anyYieldsList children with
  | false => simp [SketchedChildren.of, flatten, flattenUses, SketchedChildren.whole, Sketch.uses]
  | true =>
    rcases children with _ | ⟨node, _ | ⟨second, rest⟩⟩
    · cases flatten
    · have yields : node.yieldsList = true := by simpa [anyYieldsList] using flatten
      obtain ⟨sketch, only, -⟩ := sketches_of_yieldsList node scope given yields
      simp [SketchedChildren.of, flatten, flattenUses, SketchedChildren.whole, sketchesAll, only,
        listUses]
    · simp [SketchedChildren.of, flatten, flattenUses, SketchedChildren.whole, Sketch.uses,
        listUses]

theorem allSilent_eq_false {children : List Node} (flatten : anyYieldsList children = true) :
    allSilent children = false := by
  obtain ⟨node, member, yields⟩ := (anyYieldsList_iff children).mp flatten
  obtain ⟨sketch, only, -⟩ := sketches_of_yieldsList node [] 0 yields
  have speaks : node.silent = false := by
    cases silent : node.silent with
    | false => rfl
    | true => simp [(sketches_eq_nil_iff node [] 0).mpr silent] at only
  clear yields only flatten
  induction member with
  | head rest => simp [allSilent, speaks]
  | tail first member ih => simp [allSilent, ih]

theorem mem_listUses_gatedOn (condition : Option Condition) (sketches : List Sketch) (use : Use) :
    use ∈ listUses around (sketches.map (gatedOn scope condition)) ↔
      use ∈ (if sketches = [] then [] else condition.toList.flatMap fun condition =>
        condition.path.uses scope around) ++ listUses around sketches := by
  simp only [listUses_eq_flatMap, List.flatMap_map, uses_gatedOn]
  by_cases none : sketches = []
  · simp [none]
  · obtain ⟨first, member⟩ := List.exists_mem_of_ne_nil sketches none
    rw [if_neg none, List.mem_append, List.mem_flatMap]
    constructor
    · rintro ⟨sketch, within, found⟩
      rcases List.mem_append.mp found with tested | found
      · exact .inl tested
      · exact .inr (List.mem_flatMap.mpr ⟨sketch, within, found⟩)
    · rintro (tested | found)
      · exact ⟨first, member, List.mem_append_left _ tested⟩
      · obtain ⟨sketch, within, found⟩ := List.mem_flatMap.mp found
        exact ⟨sketch, within, List.mem_append_right _ found⟩

theorem uses_single (sketches : List Sketch) :
    (single sketches).uses around = listUses around sketches := by
  match sketches with
  | [] => rfl
  | [only] => simp [single, listUses]
  | first :: second :: rest => rfl

end Children

-- A condition on several children is tested for each of them, so uses are compared by membership
-- and not as lists. It is tested for none of them if there are none.
theorem mem_template_uses (scope : Scope) (around : List (List String)) (given : Nat) (el : Element)
    (children : List Node) (use : Use) :
    use ∈ listUses around ((SketchedChildren.of children
        (sketchesAll (innerScope scope el.loop) given children)).template
          (innerScope scope el.loop) scope el) ↔
      use ∈ el.loop.toList.flatMap (Loop.uses scope around) ++
        (if allSilent children then [] else el.condition.toList.flatMap fun condition =>
          condition.path.uses (innerScope scope el.loop) (innerAround around el.loop)) ++
        flattenUses (innerAround around el.loop) children ++
        listUses (innerAround around el.loop)
          (sketchesAll (innerScope scope el.loop) given children) := by
  have whole := uses_whole (innerAround around el.loop) (innerScope scope el.loop) given children
  cases flatten : anyYieldsList children with
  | true =>
    obtain ⟨joined, same, -⟩ := joined_of_anyYieldsList children (innerScope scope el.loop) given
      flatten
    rw [same] at whole ⊢
    rw [SketchedChildren.whole] at whole
    simp [SketchedChildren.template, listUses, uses_repeatedOver, uses_gatedOn,
      allSilent_eq_false flatten, whole]
  | false =>
    have silent := sketchesAll_eq_nil_iff children (innerScope scope el.loop) given
    have separate : SketchedChildren.of children (sketchesAll (innerScope scope el.loop) given
        children) = .separate (sketchesAll (innerScope scope el.loop) given children) := by
      simp [SketchedChildren.of, flatten]
    have gated := mem_listUses_gatedOn (innerAround around el.loop) (innerScope scope el.loop)
      el.condition (sketchesAll (innerScope scope el.loop) given children) use
    simp only [silent] at gated
    have flat : flattenUses (innerAround around el.loop) children = [] := by
      simp [flattenUses, flatten]
    rw [separate, flat, List.append_nil]
    simp only [SketchedChildren.template]
    cases looped : el.loop with
    | some loop =>
      rw [looped] at gated
      simp [listUses, uses_repeatedOver, uses_single, gated]
    | none =>
      rw [looped] at gated
      cases gate : el.condition with
      | none =>
        rw [gate] at gated
        simpa [listUses, Sketch.uses, innerAround] using gated
      | some condition =>
        rw [gate] at gated
        simpa [innerAround] using gated

mutual

theorem mem_uses (node : Node) (scope : Scope) (around : List (List String)) (given : Nat)
    (use : Use) :
    use ∈ listUses around (node.sketches scope given) ↔ use ∈ node.uses scope around := by
  cases node with
  | text value =>
    simp [sketches, listUses, Sketch.uses, uses_ofValue, Node.uses]
  | element el children =>
    have below := mem_usesAll children (innerScope scope el.loop) (innerAround around el.loop) given
      use
    simp only [sketches, listUses, uses_repeatedOver, uses_gatedOn, Sketch.uses, uses_whole,
      propertyUses_dataFields, Node.uses, List.mem_append, List.mem_cons, below, List.append_nil,
      List.nil_append, or_assoc]
  | template el children =>
    have below := mem_usesAll children (innerScope scope el.loop) (innerAround around el.loop) given
      use
    have here := mem_template_uses scope around given el children use
    rw [List.mem_append, below, ← List.mem_append] at here
    rw [sketches, Node.uses]
    exact here
  | slot el children name =>
    have below := mem_usesAll children (innerScope scope el.loop) around given use
    simp only [sketches, listUses, Sketch.uses, uses_whole, Node.uses, List.mem_append,
      List.mem_cons, below, List.append_nil, List.cons_append, List.nil_append]
  | custom el children component content =>
    have below := mem_usesContent content (innerScope scope el.loop) (innerAround around el.loop)
      (given + el.handlerCount) use
    have slotSet : use ∈ propertyUses (innerAround around el.loop)
          (if content.isEmpty then [] else [("slotset", .object (sketchesContent
            (innerScope scope el.loop) (given + el.handlerCount) content))]) ↔
        use ∈ usesContent (innerScope scope el.loop) (innerAround around el.loop) content := by
      cases content with
      | nil => rfl
      | cons entry rest => simpa [propertyUses, Sketch.uses] using below
    simp only [sketches, listUses, uses_repeatedOver, uses_gatedOn, Sketch.uses,
      propertyUses_append, propertyUses_dataFields, Node.uses, List.mem_append, List.mem_cons,
      slotSet, List.append_nil, List.nil_append, List.cons_append, or_assoc]

theorem mem_usesAll (nodes : List Node) (scope : Scope) (around : List (List String)) (given : Nat)
    (use : Use) :
    use ∈ listUses around (sketchesAll scope given nodes) ↔ use ∈ usesAll scope around nodes := by
  cases nodes with
  | nil => rfl
  | cons node rest =>
    rw [sketchesAll, usesAll, listUses_eq_flatMap, List.flatMap_append, List.mem_append,
      List.mem_append, ← listUses_eq_flatMap, ← listUses_eq_flatMap,
      mem_uses node scope around given use, mem_usesAll rest scope around _ use]

theorem mem_usesContent (content : List (String × List Node)) (scope : Scope)
    (around : List (List String)) (given : Nat) (use : Use) :
    use ∈ propertyUses around (sketchesContent scope given content) ↔
      use ∈ usesContent scope around content := by
  cases content with
  | nil => rfl
  | cons entry rest =>
    obtain ⟨name, nodes⟩ := entry
    rw [sketchesContent, propertyUses, usesContent, uses_whole, List.mem_append, List.mem_append,
      List.mem_append, List.mem_append, mem_usesAll nodes scope around given use,
      mem_usesContent rest scope around _ use]

end

end Node

/-- The identifiers of a compiled template are those that the template asks for. -/
theorem compile_uses (api : RuntimeApi) (document : Document) {compilation : Compilation}
    (compiles : (compile api document).1 = .ok compilation) :
    ∃ (root : Expr) (uses : List Use),
      compilation.script = assemble root document.finalImports api ∧
      root.occurrences [] = uses.map (Use.occurrence api document.finalImports.nameOf) ∧
      ∀ use, use ∈ uses ↔ use ∈ document.root.uses [] [] := by
  obtain rfl := eq_of_compiles (.ofApi api) document compiles
  refine ⟨_, (document.root.sketch [] 0).uses [], rfl, Sketch.occurrences_expr api _ _ [], ?_⟩
  intro use
  rw [Node.sketch, Node.uses_single]
  exact Node.mem_uses document.root [] [] 0 use

end RenderCompiler
