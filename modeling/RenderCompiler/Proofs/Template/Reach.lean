import RenderCompiler.Lowering.Directive

set_option autoImplicit false

namespace RenderCompiler

namespace Node

mutual

def reached : Node → List Node
  | .text value => [.text value]
  | .element el children => reachedAll children ++ [.element el children]
  | .template el children => reachedAll children ++ [.template el children]
  | .slot el children name => reachedAll children ++ [.slot el children name]
  | .custom el children component content =>
    reachedContent content ++ [.custom el children component content]

def reachedAll : List Node → List Node
  | [] => []
  | node :: rest => reached node ++ reachedAll rest

def reachedContent : List (String × List Node) → List Node
  | [] => []
  | (_, nodes) :: rest => reachedAll nodes ++ reachedContent rest

end

-- A walk passes the children of custom elements over.
def walkedChildren : Node → List Node
  | .custom _ _ _ _ => []
  | node => node.children

inductive Reaches : Node → Node → Prop
  | self (node : Node) : Reaches node node
  | child {node child other : Node} (member : child ∈ node.walkedChildren)
      (below : Reaches child other) : Reaches node other
  | content {el : Element} {children : List Node} {component : String}
      {content : List (String × List Node)} {slot : String × List Node} {node other : Node}
      (projected : slot ∈ content) (member : node ∈ slot.2) (below : Reaches node other) :
      Reaches (.custom el children component content) other

mutual

theorem reaches_of_mem (node other : Node) (member : other ∈ node.reached) :
    node.Reaches other := by
  cases node with
  | text value =>
    obtain rfl := List.mem_singleton.mp member
    exact .self _
  | element el children | template el children | slot el children name =>
    rcases List.mem_append.mp member with below | here
    · obtain ⟨child, among, reaches⟩ := reaches_of_mem_all children other below
      exact .child among reaches
    · obtain rfl := List.mem_singleton.mp here
      exact .self _
  | custom el children component content =>
    rcases List.mem_append.mp member with below | here
    · obtain ⟨slot, projected, child, among, reaches⟩ := reaches_of_mem_content content other below
      exact .content projected among reaches
    · obtain rfl := List.mem_singleton.mp here
      exact .self _

theorem reaches_of_mem_all (nodes : List Node) (other : Node) (member : other ∈ reachedAll nodes) :
    ∃ node ∈ nodes, node.Reaches other := by
  cases nodes with
  | nil => cases member
  | cons node rest =>
    rcases List.mem_append.mp member with here | later
    · exact ⟨node, List.mem_cons_self, reaches_of_mem node other here⟩
    · obtain ⟨found, among, reaches⟩ := reaches_of_mem_all rest other later
      exact ⟨found, List.mem_cons_of_mem _ among, reaches⟩

theorem reaches_of_mem_content (content : List (String × List Node)) (other : Node)
    (member : other ∈ reachedContent content) :
    ∃ slot ∈ content, ∃ node ∈ slot.2, node.Reaches other := by
  cases content with
  | nil => cases member
  | cons slot rest =>
    rcases List.mem_append.mp member with here | later
    · exact ⟨slot, List.mem_cons_self, reaches_of_mem_all slot.2 other here⟩
    · obtain ⟨found, among, reaches⟩ := reaches_of_mem_content rest other later
      exact ⟨found, List.mem_cons_of_mem _ among, reaches⟩

end

theorem mem_reachedAll {nodes : List Node} {node other : Node} (member : node ∈ nodes)
    (below : other ∈ node.reached) : other ∈ reachedAll nodes := by
  induction nodes with
  | nil => cases member
  | cons first rest ih =>
    rw [reachedAll, List.mem_append]
    cases member with
    | head => exact .inl below
    | tail _ member => exact .inr (ih member)

theorem mem_reachedContent {content : List (String × List Node)} {slot : String × List Node}
    {other : Node} (member : slot ∈ content) (below : other ∈ reachedAll slot.2) :
    other ∈ reachedContent content := by
  induction content with
  | nil => cases member
  | cons first rest ih =>
    rw [reachedContent, List.mem_append]
    cases member with
    | head => exact .inl below
    | tail _ member => exact .inr (ih member)

theorem mem_reached_iff (node other : Node) : other ∈ node.reached ↔ node.Reaches other := by
  constructor
  · exact reaches_of_mem node other
  · intro reaches
    induction reaches with
    | self node => cases node <;> simp [reached]
    | @child node child other member below ih =>
      cases node with
      | text value => cases member
      | custom el children component content => cases member
      | _ => exact List.mem_append_left _ (mem_reachedAll member ih)
    | content projected member below ih =>
      exact List.mem_append_left _ (mem_reachedContent projected (mem_reachedAll member ih))

-- A condition on a slot gates nothing.
def gate? : Node → Option Condition
  | .element el _ | .template el _ | .custom el _ _ _ => el.condition
  | .text _ | .slot _ _ _ => none

def unknownModifier? (node : Node) : Option String :=
  node.gate?.bind fun condition =>
    if (Lowering.Test.ofModifier? condition.modifier).isNone then some condition.modifier else none

def component? : Node → Option String
  | .custom _ _ component _ => some component
  | _ => none

def carrier? : Node → Option Element
  | .element el _ | .custom el _ _ _ => some el
  | .text _ | .template _ _ | .slot _ _ _ => none

def key? (node : Node) : Option Expr := node.carrier?.bind fun el => el.loop.bind Loop.key

def slotLoop? : Node → Option Loop
  | .slot el _ _ => el.loop
  | _ => none

-- A loop on a slot repeats nothing.
def repeat? : Node → Option Loop
  | .element el _ | .template el _ | .custom el _ _ _ => el.loop
  | .text _ | .slot _ _ _ => none

def loopNames (node : Node) : List String := (node.loop?.map Loop.names).getD []

end Node

def Lowering.innerScope (scope : Scope) (loop : Option Loop) : Scope :=
  scope ++ (loop.map Loop.names).getD []

theorem Lowering.innerScope_none (scope : Scope) : innerScope scope none = scope := by
  simp [innerScope]

def Element.handlerCount (el : Element) : Nat := (el.on.getD []).length

def Node.handlerCount (node : Node) : Nat := (node.carrier?.map Element.handlerCount).getD 0

def handlerTotal : List Node → Nat
  | [] => 0
  | node :: rest => node.handlerCount + handlerTotal rest

section Reached

variable (nodes others : List Node) (node : Node)

def unknownModifiers : List String := nodes.filterMap Node.unknownModifier?

def components : List String := nodes.filterMap Node.component?

def keys : List Expr := nodes.filterMap Node.key?

def slotLoops : List Loop := nodes.filterMap Node.slotLoop?

def repeats : List Loop := nodes.filterMap Node.repeat?

def localNames : List String := nodes.flatMap Node.loopNames

@[simp] theorem unknownModifiers_append :
    unknownModifiers (nodes ++ others) = unknownModifiers nodes ++ unknownModifiers others :=
  List.filterMap_append

@[simp] theorem unknownModifiers_singleton :
    unknownModifiers [node] = node.unknownModifier?.toList := by
  cases h : node.unknownModifier? <;> simp [unknownModifiers, h]

@[simp] theorem components_append :
    components (nodes ++ others) = components nodes ++ components others :=
  List.filterMap_append

@[simp] theorem components_singleton : components [node] = node.component?.toList := by
  cases h : node.component? <;> simp [components, h]

@[simp] theorem handlerTotal_append :
    handlerTotal (nodes ++ others) = handlerTotal nodes + handlerTotal others := by
  induction nodes with
  | nil => simp [handlerTotal]
  | cons node rest ih =>
    simp only [List.cons_append, handlerTotal]
    omega

@[simp] theorem handlerTotal_singleton : handlerTotal [node] = node.handlerCount := by
  simp [handlerTotal]

@[simp] theorem slotLoops_append :
    slotLoops (nodes ++ others) = slotLoops nodes ++ slotLoops others :=
  List.filterMap_append

@[simp] theorem slotLoops_singleton : slotLoops [node] = node.slotLoop?.toList := by
  cases h : node.slotLoop? <;> simp [slotLoops, h]

@[simp] theorem repeats_append : repeats (nodes ++ others) = repeats nodes ++ repeats others :=
  List.filterMap_append

@[simp] theorem repeats_singleton : repeats [node] = node.repeat?.toList := by
  cases h : node.repeat? <;> simp [repeats, h]

@[simp] theorem keys_append : keys (nodes ++ others) = keys nodes ++ keys others :=
  List.filterMap_append

@[simp] theorem keys_singleton : keys [node] = node.key?.toList := by
  cases h : node.key? <;> simp [keys, h]

@[simp] theorem localNames_append :
    localNames (nodes ++ others) = localNames nodes ++ localNames others :=
  List.flatMap_append

@[simp] theorem localNames_singleton : localNames [node] = node.loopNames := by
  simp [localNames]

end Reached

def Node.gallery : Node :=
  .element { tag := "ul" } [.custom
    { tag := "x-card"
      condition := some { path := ⟨"card", ["shown"]⟩ }
      loop := some { path := ⟨"cards", []⟩, item := "card" } }
    [] "cards/card" [("title", [.text (.bound ⟨"card", ["title"]⟩)])]]

end RenderCompiler
