import RenderCompiler.Proofs.Json.Gives
import RenderCompiler.Proofs.Script.Decoding
import RenderCompiler.Proofs.Template.Values
import RenderCompiler.Template.Json

set_option autoImplicit false

namespace RenderCompiler

theorem joinParts_eq_intercalate (separator : Char) (parts : List (List Char)) :
    joinParts separator parts = [separator].intercalate parts := by
  induction parts with
  | nil => rfl
  | cons part rest ih =>
    cases rest with
    | nil => simp [joinParts, List.intercalate]
    | cons next rest => simp [joinParts, ih, List.intercalate]

theorem Path.text_ofText (text : String) : (Path.ofText text).text = text := by
  have point : ".".toList = ['.'] := rfl
  have plain : String.toList ∘ String.ofList = id := funext fun _ => String.toList_ofList
  rw [← String.toList_inj, Path.text, Path.segments_ofText, String.toList_intercalate, stringParts,
    point, List.map_map, plain, List.map_id, ← joinParts_eq_intercalate, joinParts_partsOf]

-- No segment holds a point.
def Path.IsProper (path : Path) : Prop := Path.ofText path.text = path

theorem Path.isProper_ofText (text : String) : (Path.ofText text).IsProper := by
  rw [IsProper, text_ofText]

def Value.IsProper : Value → Prop
  | .text _ => True
  | .number x => x.isFinite = true
  | .bound path => path.IsProper

def Loop.IsProper (loop : Loop) : Prop := loop.path.IsProper ∧ ∀ key ∈ loop.key, key.IsFinite

structure Element.IsProper (el : Element) : Prop where
  condition : ∀ condition ∈ el.condition, condition.path.IsProper
  loop : ∀ loop ∈ el.loop, loop.IsProper
  className : ∀ value ∈ el.className, value.IsProper
  classMap : ∀ entries ∈ el.classMap, entries.All Value.IsProper
  style : ∀ entries ∈ el.style, entries.All Value.IsProper
  attrs : ∀ entries ∈ el.attrs, entries.All Value.IsProper
  props : ∀ entries ∈ el.props, entries.All Value.IsProper
  on : ∀ entries ∈ el.on, entries.All Path.IsProper

namespace Node

mutual

def IsProper : Node → Prop
  | .text value => value.IsProper
  | .element el children => el.IsProper ∧ AllProper children
  | .template el children => el.IsProper ∧ AllProper children
  | .slot el children _ => el.IsProper ∧ AllProper children
  | .custom el children _ content =>
    el.IsProper ∧ AllProper children ∧ Entries.Distinct content ∧ ContentProper content

def AllProper : List Node → Prop
  | [] => True
  | node :: rest => node.IsProper ∧ AllProper rest

def ContentProper : List (String × List Node) → Prop
  | [] => True
  | (_, nodes) :: rest => AllProper nodes ∧ ContentProper rest

end

theorem allProper_iff (nodes : List Node) : AllProper nodes ↔ ∀ node ∈ nodes, node.IsProper := by
  induction nodes with
  | nil => simp [AllProper]
  | cons node rest ih => simp only [AllProper, ih, List.forall_mem_cons]

theorem contentProper_iff (content : List (String × List Node)) :
    ContentProper content ↔ ∀ slot ∈ content, ∀ node ∈ slot.2, node.IsProper := by
  induction content with
  | nil => simp [ContentProper]
  | cons slot rest ih => simp only [ContentProper, ih, List.forall_mem_cons, allProper_iff]

theorem IsProper.reached {node other : Node} (reaches : node.Reaches other)
    (proper : node.IsProper) : other.IsProper := by
  induction reaches with
  | self => exact proper
  | @child node child other member below ih =>
    refine ih ?_
    cases node with
    | text => cases member
    | custom => cases member
    | element | template | slot => exact (allProper_iff _).mp proper.2 child member
  | content projected member below ih =>
    exact ih ((contentProper_iff _).mp proper.2.2.2 _ projected _ member)

theorem IsProper.carrier {node : Node} (proper : node.IsProper) :
    ∀ el ∈ node.carrier?, el.IsProper := by
  cases node with
  | text | template | slot => exact fun el none => by cases none
  | element | custom =>
    rintro el ⟨⟩
    exact proper.1

end Node

theorem Value.IsProper.number {value : Value} (proper : value.IsProper) :
    ∀ number ∈ value.number?, number.isFinite = true := by
  cases value with
  | text | bound => exact fun number none => by cases none
  | number x =>
    rintro number ⟨⟩
    exact proper

theorem Entries.isProper_values {given : Option (Entries Value)}
    (proper : ∀ entries ∈ given, entries.All Value.IsProper) :
    ∀ value ∈ Entries.values given, value.IsProper := by
  intro value member
  obtain ⟨entry, among, rfl⟩ := List.mem_map.mp member
  cases given with
  | none => cases among
  | some entries => exact (proper entries rfl).2 entry among

theorem Element.IsProper.values {el : Element} (proper : el.IsProper) :
    ∀ value ∈ el.values, value.IsProper := by
  intro value member
  simp only [Element.values, List.mem_append, Option.mem_toList] at member
  rcases member with ((own | style) | attrs) | props
  · exact proper.className value own
  · exact Entries.isProper_values proper.style value style
  · exact Entries.isProper_values proper.attrs value attrs
  · exact Entries.isProper_values proper.props value props

namespace Node

theorem IsProper.values {node : Node} (proper : node.IsProper) :
    ∀ value ∈ node.values, value.IsProper := by
  cases node with
  | text value => exact List.forall_mem_singleton.mpr proper
  | template | slot => exact fun value none => by cases none
  | element | custom => exact proper.1.values

theorem IsProper.isFinite {node : Node} (proper : node.IsProper) : node.IsFinite := by
  intro number member
  obtain ⟨other, reached, own⟩ := List.mem_flatMap.mp member
  obtain ⟨value, among, same⟩ := List.mem_filterMap.mp own
  have below := proper.reached ((mem_reached_iff _ _).mp reached)
  exact (below.values value among).number number same

theorem IsProper.keys {node : Node} (proper : node.IsProper) :
    ∀ key ∈ keys node.reached, key.IsFinite := by
  intro key member
  obtain ⟨other, reached, own⟩ := List.mem_filterMap.mp member
  have below := proper.reached ((mem_reached_iff _ _).mp reached)
  obtain ⟨el, carried, repeated⟩ := Option.bind_eq_some_iff.mp own
  obtain ⟨loop, looped, keyed⟩ := Option.bind_eq_some_iff.mp repeated
  exact ((below.carrier el carried).loop loop looped).2 key keyed

end Node

end RenderCompiler
