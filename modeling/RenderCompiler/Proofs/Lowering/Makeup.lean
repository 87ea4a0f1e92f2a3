import RenderCompiler.Proofs.Lowering.Outcome
import RenderCompiler.Proofs.Script.Parts
import RenderCompiler.Proofs.Template.Values

set_option autoImplicit false

namespace RenderCompiler

structure Parts.Suit (parts : Parts) (api : RuntimeApi) (names : String → String)
    (nodes : List Node) : Prop where
  param : ∀ name ∈ api.params, parts.name name
  component : ∀ specifier ∈ components nodes, parts.name (names specifier)
  loop : ∀ name ∈ localNames nodes, parts.name name
  number : ∀ value ∈ numbers nodes, parts.number value
  slot : ∀ slot : UInt32, parts.number (.ofUInt32 slot)
  object : ∀ object : Expr, ¬ object.IsNumber → parts.object object
  keyed : ∀ key ∈ keys nodes, key.MadeOf parts

namespace Sketch

section Makeup

variable {parts : Parts} {api : RuntimeApi} {names : String → String} {nodes : List Node}

variable (parts api names) in
def IsMadeOf (sketch : Sketch) : Prop := (sketch.expr (.ofApi api) names).MadeOf parts

def Known (parts : Parts) (scope : Scope) : Prop := ∀ name ∈ scope, parts.name name

theorem allMadeOf_iff (sketches : List Sketch) :
    Expr.AllMadeOf parts (exprs (.ofApi api) names sketches) ↔
      ∀ sketch ∈ sketches, sketch.IsMadeOf parts api names := by
  induction sketches with
  | nil => simp [exprs, Expr.AllMadeOf]
  | cons sketch rest ih =>
    simp only [exprs, Expr.AllMadeOf, ih, List.forall_mem_cons, IsMadeOf]

theorem propertiesMadeOf_iff (fields : List (String × Sketch)) :
    Expr.PropertiesMadeOf parts (exprProperties (.ofApi api) names fields) ↔
      ∀ field ∈ fields, field.2.IsMadeOf parts api names := by
  induction fields with
  | nil => simp [exprProperties, Expr.PropertiesMadeOf]
  | cons field rest ih =>
    simp only [exprProperties, Expr.PropertiesMadeOf, ih, List.forall_mem_cons, IsMadeOf]

variable (suit : parts.Suit api names nodes)

include suit

theorem madeOf_members {start : Expr} (properties : List String) (apart : ¬ start.IsNumber)
    (made : start.MadeOf parts) : (start.members properties).MadeOf parts := by
  induction properties generalizing start with
  | nil => exact made
  | cons property rest ih => exact ih (fun number => number) ⟨suit.object start apart, made⟩

theorem madeOf_read (path : Path) {scope : Scope} (known : Known parts scope) :
    (Sketch.read path scope).IsMadeOf parts api names := by
  have component : parts.name api.componentParam := suit.param _ (by simp [RuntimeApi.params])
  simp only [IsMadeOf, expr, Lowering.Environment.ofApi]
  by_cases inside : path.head ∈ scope
  · rw [componentBinder_local inside]
    exact madeOf_members suit path.rest id (known path.head inside)
  · rw [componentBinder_member inside]
    exact madeOf_members suit path.rest id ⟨suit.object _ id, component⟩

theorem madeOf_primitive (name : String) {arguments : List Expr}
    (made : Expr.AllMadeOf parts arguments) : (api.primitive name arguments).MadeOf parts := by
  have runtime : parts.name api.apiParam := suit.param _ (by simp [RuntimeApi.params])
  exact ⟨⟨suit.object _ id, runtime⟩, made⟩

theorem madeOf_call (primitive : Primitive) {arguments : List Sketch}
    (made : ∀ argument ∈ arguments, argument.IsMadeOf parts api names) :
    (Sketch.call primitive arguments).IsMadeOf parts api names :=
  madeOf_primitive suit _ ((allMadeOf_iff arguments).mpr made)

theorem madeOf_ofTest (condition : Condition) {scope : Scope} (known : Known parts scope) :
    (ofTest scope condition).IsMadeOf parts api names := by
  have read := madeOf_read suit condition.path known
  unfold ofTest
  split
  · exact read
  · exact ⟨read, trivial⟩
  · exact read

theorem madeOf_gatedOn {condition : Option Condition} {scope : Scope} {sketch : Sketch}
    (known : Known parts scope) (made : sketch.IsMadeOf parts api names) :
    (gatedOn scope condition sketch).IsMadeOf parts api names := by
  cases condition with
  | none => exact made
  | some condition => exact ⟨madeOf_ofTest suit condition known, made, trivial⟩

theorem madeOf_repeatedOver {loop : Option Loop} {outer : Scope} {sketch : Sketch}
    (known : Known parts outer) (own : Known parts ((loop.map Loop.names).getD []))
    (made : sketch.IsMadeOf parts api names) :
    (repeatedOver outer loop sketch).IsMadeOf parts api names := by
  cases loop with
  | none => exact made
  | some loop =>
    exact madeOf_primitive suit api.iterate
      ⟨madeOf_read suit loop.path known, ⟨own, made, trivial⟩, trivial⟩

theorem madeOf_ofValue {value : Value} {scope : Scope} (known : Known parts scope)
    (number : ∀ number ∈ value.number?, parts.number number) :
    (ofValue scope value).IsMadeOf parts api names := by
  cases value with
  | text value => trivial
  | number value => exact number value rfl
  | bound path => exact madeOf_read suit path known

theorem madeOf_ofAttribute {value : Value} {scope : Scope} (known : Known parts scope)
    (number : ∀ number ∈ value.number?, parts.number number) :
    (ofAttribute scope value).IsMadeOf parts api names := by
  unfold ofAttribute
  split
  · trivial
  · exact madeOf_ofValue suit known number

theorem madeOf_ofHandlers (handlers : Entries Path) {scope : Scope} {given : Nat}
    (known : Known parts scope) : (ofHandlers scope given handlers).IsMadeOf parts api names := by
  refine (propertiesMadeOf_iff _).mpr ?_
  intro field member
  obtain ⟨⟨⟨event, path⟩, index⟩, -, rfl⟩ := List.mem_map.mp member
  refine madeOf_call suit .bind ?_
  intro argument among
  simp only [List.mem_cons, List.not_mem_nil, or_false] at among
  rcases among with rfl | rfl
  · exact madeOf_read suit path known
  · exact suit.slot (.ofNat index)

omit suit in
theorem madeOf_ofEntries {α : Type} {make : α → Sketch} {entries : Entries α}
    (each : ∀ value ∈ entries.map Prod.snd, (make value).IsMadeOf parts api names) :
    (ofEntries make entries).IsMadeOf parts api names := by
  refine (propertiesMadeOf_iff _).mpr ?_
  intro field member
  obtain ⟨⟨name, value⟩, among, rfl⟩ := List.mem_map.mp member
  exact each value (List.mem_map.mpr ⟨_, among, rfl⟩)

omit suit in
theorem madeOf_field {α : Type} {name : String} {make : α → Sketch} {value : Option α}
    (each : ∀ inside ∈ value, (make inside).IsMadeOf parts api names) :
    ∀ entry ∈ field name make value, entry.2.IsMadeOf parts api names := by
  cases value with
  | none => exact fun entry member => nomatch member
  | some value =>
    intro entry member
    rw [List.mem_singleton.mp member]
    exact each value rfl

theorem madeOf_dataFields {el : Element} {scope : Scope} {given : Nat}
    (known : Known parts scope)
    (number : ∀ number ∈ el.values.filterMap Value.number?, parts.number number)
    (keyed : ∀ key ∈ el.loop.bind Loop.key, key.MadeOf parts) :
    ∀ field ∈ dataFields scope given el, field.2.IsMadeOf parts api names := by
  have each (value : Value) (member : value ∈ el.values) :
      ∀ number ∈ value.number?, parts.number number := fun found same =>
    number found (List.mem_filterMap.mpr ⟨value, member, same⟩)
  have entries {make : Value → Sketch} (found : Option (Entries Value))
      (member : ∀ value ∈ Entries.values found, (make value).IsMadeOf parts api names) :
      ∀ inside ∈ found, (ofEntries make inside).IsMadeOf parts api names := by
    rintro inside rfl
    exact madeOf_ofEntries member
  unfold Element.values at each
  simp only [List.mem_append, Option.mem_toList] at each
  simp only [dataFields, List.mem_append, or_imp, forall_and]
  refine ⟨⟨⟨⟨⟨⟨?_, ?_⟩, ?_⟩, ?_⟩, ?_⟩, ?_⟩, ?_⟩
  · exact madeOf_field fun value same =>
      madeOf_ofValue suit known (each value (.inl (.inl (.inl same))))
  · exact madeOf_field (entries el.classMap fun _ _ => trivial)
  · exact madeOf_field (entries el.style fun value member =>
      madeOf_ofValue suit known (each value (.inl (.inl (.inr member)))))
  · exact madeOf_field (entries el.attrs fun value member =>
      madeOf_ofAttribute suit known (each value (.inl (.inr member))))
  · exact madeOf_field (entries el.props fun value member =>
      madeOf_ofAttribute suit known (each value (.inr member)))
  · exact madeOf_field keyed
  · exact madeOf_field fun handlers _ => madeOf_ofHandlers suit handlers known

variable (parts api names) in
omit suit in
def ChildrenMadeOf : SketchedChildren → Prop
  | .separate sketches => ∀ sketch ∈ sketches, sketch.IsMadeOf parts api names
  | .joined sketch => sketch.IsMadeOf parts api names

theorem madeOf_children (children : List Node) {lowered : List Sketch}
    (each : ∀ sketch ∈ lowered, sketch.IsMadeOf parts api names) :
    ChildrenMadeOf parts api names (.of children lowered) := by
  unfold SketchedChildren.of
  split
  · exact each
  · split
    · exact each _ List.mem_cons_self
    · have list : (Sketch.array lowered).IsMadeOf parts api names :=
        (allMadeOf_iff lowered).mpr each
      exact madeOf_call suit .flatten (by simpa using list)

omit suit in
theorem ChildrenMadeOf.whole {children : SketchedChildren}
    (made : ChildrenMadeOf parts api names children) :
    children.whole.IsMadeOf parts api names := by
  cases children with
  | separate sketches => exact (allMadeOf_iff sketches).mpr made
  | joined sketch => exact made

omit suit in
theorem madeOf_single {sketches : List Sketch}
    (each : ∀ sketch ∈ sketches, sketch.IsMadeOf parts api names) :
    (single sketches).IsMadeOf parts api names := by
  unfold single
  split
  · exact each _ List.mem_cons_self
  · exact (allMadeOf_iff _).mpr each

theorem ChildrenMadeOf.template {children : SketchedChildren} {inner outer : Scope} {el : Element}
    (made : ChildrenMadeOf parts api names children) (known : Known parts outer)
    (own : Known parts ((el.loop.map Loop.names).getD [])) (inside : Known parts inner) :
    ∀ sketch ∈ children.template inner outer el, sketch.IsMadeOf parts api names := by
  cases children with
  | joined sketch =>
    simp only [SketchedChildren.template, List.forall_mem_singleton]
    exact madeOf_repeatedOver suit known own (madeOf_gatedOn suit inside made)
  | separate sketches =>
    have gated : ∀ sketch ∈ sketches.map (gatedOn inner el.condition),
        sketch.IsMadeOf parts api names := by
      intro sketch member
      obtain ⟨first, among, rfl⟩ := List.mem_map.mp member
      exact madeOf_gatedOn suit inside (made first among)
    simp only [SketchedChildren.template]
    split
    next loop _ same =>
      rw [same] at own
      simp only [List.forall_mem_singleton]
      exact madeOf_repeatedOver suit known own (madeOf_single gated)
    next => exact gated
    next =>
      simp only [List.forall_mem_singleton]
      exact (allMadeOf_iff _).mpr gated

section Node

variable {node : Node} (member : node ∈ nodes)

include member

theorem known_names : Known parts node.loopNames := fun name own =>
  suit.loop name (List.mem_flatMap.mpr ⟨node, member, own⟩)

theorem number_values : ∀ number ∈ node.values.filterMap Value.number?, parts.number number :=
  fun number own => suit.number number (List.mem_flatMap.mpr ⟨node, member, own⟩)

theorem madeOf_key : ∀ key ∈ node.key?, key.MadeOf parts :=
  fun key own => suit.keyed key (List.mem_filterMap.mpr ⟨node, member, own⟩)

end Node

end Makeup

section Nodes

variable {parts : Parts} {api : RuntimeApi} {names : String → String} {nodes : List Node}

theorem Known.inner {scope : Scope} {loop : Option Loop} (known : Known parts scope)
    (own : Known parts ((loop.map Loop.names).getD [])) :
    Known parts (Lowering.innerScope scope loop) := by
  intro name member
  rcases List.mem_append.mp member with outer | here
  · exact known name outer
  · exact own name here

mutual

theorem madeOf_sketches (suit : parts.Suit api names nodes) (node : Node) {scope : Scope}
    (given : Nat) (known : Known parts scope)
    (within : ∀ other ∈ node.reached, other ∈ nodes) :
    ∀ sketch ∈ node.sketches scope given, sketch.IsMadeOf parts api names := by
  have member : node ∈ nodes := within node ((Node.mem_reached_iff node node).mpr (.self node))
  have own := known_names suit member
  have number := number_values suit member
  have keyed := madeOf_key suit member
  cases node with
  | text value =>
    have only (found : Binary64) (same : value.number? = some found) : parts.number found :=
      number found (by simp [Node.values, same])
    simp only [Node.sketches, List.forall_mem_singleton]
    refine madeOf_call suit .text ?_
    simpa using madeOf_ofValue suit known only
  | element el children =>
    simp only [Node.reached, List.mem_append] at *
    have inside := known.inner own
    have below := madeOf_sketchesAll suit children given inside fun other among =>
      within other (.inl among)
    simp only [Node.sketches, List.forall_mem_singleton]
    refine madeOf_repeatedOver suit known own (madeOf_gatedOn suit inside ?_)
    refine madeOf_call suit .element ?_
    simp only [List.forall_mem_cons, List.not_mem_nil, false_imp_iff, implies_true, and_true]
    exact ⟨trivial, (propertiesMadeOf_iff _).mpr (madeOf_dataFields suit inside number keyed),
      (madeOf_children suit children below).whole⟩
  | template el children =>
    simp only [Node.reached, List.mem_append] at *
    have inside := known.inner own
    have below := madeOf_sketchesAll suit children given inside fun other among =>
      within other (.inl among)
    exact (madeOf_children suit children below).template suit known own inside
  | slot el children name =>
    simp only [Node.reached, List.mem_append] at *
    have below := madeOf_sketchesAll suit children given (known.inner own) fun other among =>
      within other (.inl among)
    simp only [Node.sketches, List.forall_mem_singleton]
    have slots : parts.name api.slotSetParam := suit.param _ (by simp [RuntimeApi.params])
    exact ⟨⟨suit.object _ id, slots⟩, (madeOf_children suit children below).whole⟩
  | custom el children component content =>
    simp only [Node.reached, List.mem_append] at *
    have inside := known.inner own
    have slots := madeOf_sketchesContent suit content (given + el.handlerCount) inside
      fun other among => within other (.inl among)
    simp only [Node.sketches, List.forall_mem_singleton]
    refine madeOf_repeatedOver suit known own (madeOf_gatedOn suit inside ?_)
    refine madeOf_call suit .customElement ?_
    simp only [List.forall_mem_cons, List.not_mem_nil, false_imp_iff, implies_true, and_true]
    refine ⟨trivial, ?_, (propertiesMadeOf_iff _).mpr fun entry among => ?_⟩
    · exact suit.component component (List.mem_filterMap.mpr ⟨_, member, rfl⟩)
    · rcases List.mem_append.mp among with field | slotted
      · exact madeOf_dataFields suit inside number keyed entry field
      · split at slotted
        · cases slotted
        · rw [List.mem_singleton.mp slotted]
          exact (propertiesMadeOf_iff _).mpr slots

theorem madeOf_sketchesAll (suit : parts.Suit api names nodes) (children : List Node)
    {scope : Scope} (given : Nat)
    (known : Known parts scope) (within : ∀ other ∈ Node.reachedAll children, other ∈ nodes) :
    ∀ sketch ∈ Node.sketchesAll scope given children, sketch.IsMadeOf parts api names := by
  cases children with
  | nil => exact fun sketch member => nomatch member
  | cons node rest =>
    simp only [Node.reachedAll, List.mem_append] at within
    have first := madeOf_sketches suit node given known fun other among =>
      within other (.inl among)
    have others := madeOf_sketchesAll suit rest (given + handlerTotal node.reached) known
      fun other among => within other (.inr among)
    intro sketch member
    rcases List.mem_append.mp member with here | later
    · exact first sketch here
    · exact others sketch later

theorem madeOf_sketchesContent (suit : parts.Suit api names nodes)
    (content : List (String × List Node)) {scope : Scope} (given : Nat)
    (known : Known parts scope) (within : ∀ other ∈ Node.reachedContent content, other ∈ nodes) :
    ∀ entry ∈ Node.sketchesContent scope given content, entry.2.IsMadeOf parts api names := by
  cases content with
  | nil => exact fun entry member => nomatch member
  | cons slot rest =>
    obtain ⟨name, projected⟩ := slot
    simp only [Node.reachedContent, List.mem_append] at within
    have first := madeOf_sketchesAll suit projected given known fun other among =>
      within other (.inl among)
    have others := madeOf_sketchesContent suit rest
      (given + handlerTotal (Node.reachedAll projected)) known
      fun other among => within other (.inr among)
    intro entry member
    rcases List.mem_cons.mp member with rfl | later
    · exact (madeOf_children suit projected first).whole
    · exact others entry later

end

end Nodes

end Sketch

theorem compile_madeOf {parts : Parts} {api : RuntimeApi} {document : Document}
    {compilation : Compilation} (compiles : (compile api document).1 = .ok compilation)
    (suit : parts.Suit api document.finalImports.nameOf document.root.reached)
    (function : parts.name api.functionName)
    (imports : ∀ name ∈ document.finalImports.locals, parts.name name) :
    Stmt.AllMadeOf parts compilation.script.body := by
  obtain rfl := eq_of_compiles (.ofApi api) document compiles
  have outside : Sketch.Known parts [] := by
    intro name member
    cases member
  have root := Sketch.madeOf_single (Sketch.madeOf_sketches suit document.root 0 outside
    fun _ member => member)
  refine (Stmt.allMadeOf_iff parts _).mpr fun s member => ?_
  rcases List.mem_append.mp member with imported | rendered
  · obtain ⟨⟨specifier, name⟩, entry, rfl⟩ := List.mem_map.mp imported
    exact imports name (List.mem_map.mpr ⟨_, entry, rfl⟩)
  · rw [List.mem_singleton.mp rendered]
    exact ⟨function, suit.param, root, trivial⟩

end RenderCompiler
