import RenderCompiler.Proofs.Template.Proper

set_option autoImplicit false

namespace RenderCompiler

namespace Decoder

open RenderCompiler.Field

theorem gives_path : Gives path Path.IsProper := by
  intro origin j found finite ran
  obtain ⟨text, -, rfl⟩ := map_ok ran
  exact Path.isProper_ofText text

theorem isProper_boundPath? {entries : List (String × Json)} {found : Path}
    (bound : boundPath? entries = some found) : found.IsProper := by
  unfold boundPath? at bound
  split at bound
  · cases bound
    exact Path.isProper_ofText _
  · cases bound

theorem gives_value : Gives value Value.IsProper := by
  intro origin j found finite ran
  unfold value at ran
  obtain ⟨kept, same, read⟩ := bind_ok ran
  rw [keep_ok same] at read
  split at read
  · cases read
    trivial
  · cases read
    exact finite
  · split at read
    next bound =>
      cases read
      exact isProper_boundPath? bound
    next => cases read
  · cases read

theorem gives_condition : Gives condition fun c => c.path.IsProper := by
  refine gives_record ?_ rfl
  simp only [List.forall_mem_cons, List.not_mem_nil, false_imp_iff, implies_true, and_true]
  exact ⟨keeps_of_gives gives_path fun _ _ given _ => given,
    keeps_of_gives (gives_trivial _) fun _ _ _ here => here⟩

theorem gives_loop : Gives loop Loop.IsProper := by
  refine gives_record ?_ ⟨rfl, fun key none => by cases none⟩
  simp only [List.forall_mem_cons, List.not_mem_nil, false_imp_iff, implies_true, and_true]
  exact ⟨keeps_of_gives gives_path fun _ _ given here => ⟨given, here.2⟩,
    keeps_of_gives (gives_trivial _) fun _ _ _ here => here,
    keeps_of_gives (gives_trivial _) fun _ _ _ here => here,
    keeps_of_gives (gives_optional gives_expr) fun _ _ given here => ⟨here.1, given⟩⟩

section Elements

variable {node : Decoder Node} (gives : Gives node Node.IsProper)

def DraftIsProper (draft : Element × List Node) : Prop :=
  draft.1.IsProper ∧ Node.AllProper draft.2

include gives

theorem gives_nodes : Gives (list node) Node.AllProper := by
  intro origin j found finite ran
  exact (Node.allProper_iff found).mpr (gives_list gives origin j found finite ran)

theorem gives_elementWith : Gives (elementWith node) DraftIsProper := by
  have values := gives_optional (gives_entries gives_value)
  have blank : Element.IsProper {} := by
    constructor <;> exact fun _ none => by cases none
  refine gives_record ?_ ⟨blank, trivial⟩
  unfold elementFields
  simp only [List.forall_mem_cons, List.not_mem_nil, false_imp_iff, implies_true, and_true]
  refine ⟨?_, ?_, ?_, ?_, ?_, ?_, ?_, ?_, ?_, ?_⟩
  · exact keeps_of_gives (gives_trivial _) fun _ _ _ here => ⟨{ here.1 with }, here.2⟩
  · exact keeps_of_gives (gives_nodes gives) fun _ _ nodes here => ⟨here.1, nodes⟩
  · exact keeps_of_gives (gives_optional gives_condition) fun _ _ given here =>
      ⟨{ here.1 with condition := given }, here.2⟩
  · exact keeps_of_gives (gives_optional gives_loop) fun _ _ given here =>
      ⟨{ here.1 with loop := given }, here.2⟩
  · exact keeps_of_gives (gives_optional gives_value) fun _ _ given here =>
      ⟨{ here.1 with className := given }, here.2⟩
  · exact keeps_of_gives values fun _ _ given here =>
      ⟨{ here.1 with classMap := given }, here.2⟩
  · exact keeps_of_gives values fun _ _ given here => ⟨{ here.1 with style := given }, here.2⟩
  · exact keeps_of_gives values fun _ _ given here => ⟨{ here.1 with attrs := given }, here.2⟩
  · exact keeps_of_gives values fun _ _ given here => ⟨{ here.1 with props := given }, here.2⟩
  · exact keeps_of_gives (gives_optional (gives_entries gives_path)) fun _ _ given here =>
      ⟨{ here.1 with on := given }, here.2⟩

theorem extended_gives {σ : Type} {holds : σ → Prop} {what : String} {own : List (Field σ)}
    {blank draft : σ} {el : Element} {nodes : List Node} {body : Json}
    (keeps : ∀ field ∈ own, field.Keeps holds) (here : holds blank) (finite : body.IsFinite)
    (ran : extended what own blank node body = .ok (draft, el, nodes)) :
    holds draft ∧ DraftIsProper (el, nodes) := by
  unfold extended at ran
  split at ran
  next members =>
    obtain ⟨⟨seen, filled⟩, set, ran⟩ := bind_ok ran
    obtain ⟨-, -, ran⟩ := bind_ok ran
    obtain ⟨⟨found, children⟩, rest, ran⟩ := bind_ok ran
    cases ran
    refine ⟨Field.fill_keeps keeps here finite set, gives_elementWith gives .kept _ _ ?_ rest⟩
    refine (Json.entriesFinite_iff _).mpr fun entry member => ?_
    exact (Json.entriesFinite_iff members).mp finite entry (List.mem_filter.mp member).1
  next => exact absurd ran mismatch_ne_ok

theorem nodeBody_gives {role : Nat} {body : Json} {found : Node} (finite : body.IsFinite)
    (ran : nodeBody node role body = .ok found) : found.IsProper := by
  unfold nodeBody at ran
  split at ran
  · refine gives_single gives_value trivial ?_ .kept body found finite ran
    exact fun _ _ given => given
  · obtain ⟨⟨el, nodes⟩, decoded, rfl⟩ := map_ok ran
    exact gives_elementWith gives .kept body (el, nodes) finite decoded
  · obtain ⟨⟨el, nodes⟩, decoded, rfl⟩ := map_ok ran
    exact gives_elementWith gives .kept body (el, nodes) finite decoded
  · obtain ⟨⟨name, el, nodes⟩, decoded, ran⟩ := bind_ok ran
    cases ran
    have keeps : ∀ field ∈ [Field.withDefault "slotName" string fun s _ => s],
        field.Keeps fun _ : String => True :=
      List.forall_mem_singleton.mpr (keeps_of_gives (gives_trivial _) fun _ _ _ _ => trivial)
    exact (extended_gives gives keeps trivial finite decoded).2
  · obtain ⟨⟨⟨component, content⟩, el, nodes⟩, decoded, ran⟩ := bind_ok ran
    cases ran
    have keeps : ∀ field ∈ [
        mandatory "component" string fun s (p : String × List (String × List Node)) => (s, p.2),
        withDefault "slotSet" (entries (list node)) fun m p => (p.1, m)],
        field.Keeps fun p => Entries.All Node.AllProper p.2 := by
      refine List.forall_mem_cons.mpr ⟨?_, List.forall_mem_singleton.mpr ?_⟩
      · exact keeps_of_gives (gives_trivial _) fun _ _ _ here => here
      · exact keeps_of_gives (gives_entries (gives_nodes gives)) fun _ _ given _ => given
    obtain ⟨⟨distinct, inside⟩, own, below⟩ :=
      extended_gives gives keeps Entries.all_nil finite decoded
    refine ⟨own, below, distinct, (Node.contentProper_iff _).mpr fun slot member => ?_⟩
    exact (Node.allProper_iff _).mp (inside slot member)

end Elements

theorem gives_nodeWithin (levels : Nat) : Gives (nodeWithin levels) Node.IsProper := by
  induction levels with
  | zero =>
    intro origin j found finite ran
    cases ran
  | succ levels ih => exact gives_tagged fun role body found => nodeBody_gives ih

theorem gives_node : Gives node Node.IsProper :=
  fun origin j => gives_nodeWithin (j.height + 1) origin j

theorem gives_document : Gives document fun found => found.root.IsProper := by
  refine gives_record ?_ trivial
  simp only [List.forall_mem_cons, List.not_mem_nil, false_imp_iff, implies_true, and_true]
  exact ⟨keeps_of_gives gives_node fun _ _ given _ => given,
    keeps_of_gives (gives_trivial _) fun _ _ _ here => here⟩

/-- A document that is read from text is proper. -/
theorem isProper_run {text : String} {found : Document} (ran : document.run text = .ok found) :
    found.root.IsProper := by
  have proper := run_gives gives_document ran
  exact proper

end Decoder

end RenderCompiler
