import RenderCompiler.Proofs.Lowering.Handlers
import RenderCompiler.Proofs.Lowering.Values
import RenderCompiler.Proofs.Script.Visits

set_option autoImplicit false

namespace RenderCompiler

namespace Lowering

section Calls

variable (env : Environment) {handlers : List (Path × Scope)}

theorem handlerCalls_mem {arguments : List Expr}
    (member : arguments ∈ handlerCalls env 0 handlers) :
    ∃ slot path scope, handlers[slot]? = some (path, scope) ∧
      arguments = [env.binder path scope, .number (.ofUInt32 (.ofNat slot))] := by
  obtain ⟨⟨⟨path, scope⟩, slot⟩, among, rfl⟩ := List.mem_map.mp member
  exact ⟨slot, path, scope, List.mem_zipIdx_iff_getElem?.mp among, rfl⟩

theorem slot_inj {first second : Nat} (fits : first < slotLimit) (fits' : second < slotLimit)
    (same : Binary64.ofUInt32 (.ofNat first) = .ofUInt32 (.ofNat second)) : first = second := by
  have numbers := congrArg UInt32.toNat (Binary64.ofUInt32_inj same)
  rwa [UInt32.toNat_ofNat_of_lt' fits, UInt32.toNat_ofNat_of_lt' fits'] at numbers

theorem nodup_handlerCalls (fits : handlers.length ≤ slotLimit) :
    (handlerCalls env 0 handlers).Nodup := by
  refine List.pairwise_iff_getElem.mpr fun i j inside within before same => ?_
  simp only [handlerCalls, List.length_map, List.length_zipIdx] at inside within
  simp only [handlerCalls, List.getElem_map, List.getElem_zipIdx, List.cons.injEq,
    Expr.number.injEq] at same
  have := slot_inj (by omega) (by omega) same.2.1
  omega

end Calls

theorem componentBinder_eq_members (component : String) (path : Path) (scope : Scope) :
    ∃ name properties,
      componentBinder component path scope = (Expr.identifier name).members properties := by
  by_cases known : path.head ∈ scope
  · exact ⟨path.head, path.rest, componentBinder_local known⟩
  · exact ⟨component, path.head :: path.rest, componentBinder_member known⟩

section HandOvers

variable {host : String → List Datum → Option Datum} {bindings : Bindings} {root : Expr}
  {handOver first second : HandOver} {path : Path} {scope : Scope} {slot : Nat}

theorem handed_eq {handler : Expr} {number : Binary64} {value passed : Datum}
    (come : [handler, .number number].mapM (Expr.eval host bindings) = some [value, passed]) :
    handler.eval host bindings = some value ∧ passed = .number number := by
  simp only [List.mapM_cons, List.mapM_nil, Expr.eval_number, Option.pure_def,
    Option.bind_eq_bind, Option.bind_some, Option.bind_eq_some_iff, Option.some.injEq,
    List.cons.injEq] at come
  obtain ⟨result, evaluated, rfl, same, -⟩ := come
  exact ⟨evaluated, same.symm⟩

section Reads

variable (hands : root.HandsOver host {} bindings handOver)
  (reads : handOver.arguments =
    [componentBinder "$cmp" path scope, .number (.ofUInt32 (.ofNat slot))])

include hands reads

theorem slot_eq : handOver.slot = .number (.ofUInt32 (.ofNat slot)) := by
  obtain ⟨callee, locals, visits, bind, come⟩ := hands
  rw [reads] at come
  exact (handed_eq come).2

theorem handler_eq (global : ¬ handOver.ReadsLocal) :
    (componentBinder "$cmp" path scope).eval host bindings = some handOver.handler := by
  obtain ⟨callee, locals, visits, bind, come⟩ := hands
  obtain ⟨name, properties, shape⟩ := componentBinder_eq_members "$cmp" path scope
  rw [HandOver.ReadsLocal, reads, shape] at global
  simp only [Expr.listOccurrences, Expr.occurrences_members, Expr.occurrences, List.append_nil,
    List.mem_singleton, exists_eq_left, Occurrence.IsCaptured, not_exists, not_and] at global
  have same : locals.lookup name = bindings.lookup name := visits.lookup_eq global
  rw [reads] at come
  rw [← (handed_eq come).1, shape, Expr.eval_members, Expr.eval_members, Expr.eval_identifier,
    Expr.eval_identifier, same]

end Reads

end HandOvers

end Lowering

open Lowering

/-- There is one call for every handler, with a slot of its own. Evaluations that pass the same slot
are of one call, and they hand over the same value where it reads no local name of a loop. -/
theorem compile_slots_identify (document : Document) (compilation : Compilation)
    (compiles : (compile {} document).1 = .ok compilation)
    (unkeyed : keys document.root.reached = [])
    (fits : handlerTotal document.root.reached < slotLimit) :
    ∃ (root : Expr) (imports : ImportTable), compilation.script = assemble root imports {} ∧
      (root.bindCalls {}).Perm (handlerCalls (.ofApi {}) 0 (document.root.handlers [])) ∧
      (root.bindCalls {}).Nodup ∧
      ∀ (host : String → List Datum → Option Datum) (bindings : Bindings) (first second : HandOver),
        root.HandsOver host {} bindings first → root.HandsOver host {} bindings second →
        first.slot = second.slot →
        (first.arguments ∈ root.bindCalls {} ∧ second.arguments = first.arguments ∧
          ∃ slot path scope, (document.root.handlers [])[slot]? = some (path, scope) ∧
            first.arguments =
              [componentBinder "$cmp" path scope, .number (.ofUInt32 (.ofNat slot))]) ∧
        (¬ first.ReadsLocal → ¬ second.ReadsLocal → first.handler = second.handler) := by
  obtain rfl := eq_of_compiles (.ofApi {}) document compiles
  let root := (document.root.sketch [] 0).expr (.ofApi {}) document.finalImports.nameOf
  have plain : Node.PlainKeys (.ofApi {}) document.root.reached := by
    intro key member
    rw [unkeyed] at member
    cases member
  have calls : (root.bindCalls {}).Perm
      (handlerCalls (.ofApi {}) 0 (document.root.handlers [])) :=
    Node.sketch_calls _ handsOver_default document.root [] 0 plain
  have limit : (document.root.handlers []).length < slotLimit := by
    rwa [Node.length_handlers]
  refine ⟨root, document.finalImports, rfl, calls, ?_, ?_⟩
  · exact calls.nodup_iff.mpr (nodup_handlerCalls _ (Nat.le_of_lt limit))
  · intro host bindings first second hands hands' same
    have among := hands.mem_bindCalls
    obtain ⟨slot, path, scope, given, reads⟩ := handlerCalls_mem _ (calls.mem_iff.mp among)
    obtain ⟨slot', path', scope', given', reads'⟩ :=
      handlerCalls_mem _ (calls.mem_iff.mp hands'.mem_bindCalls)
    rw [slot_eq hands reads, slot_eq hands' reads'] at same
    obtain rfl := slot_inj (Nat.lt_trans (List.getElem?_eq_some_iff.mp given).1 limit)
      (Nat.lt_trans (List.getElem?_eq_some_iff.mp given').1 limit) (Datum.number.inj same)
    cases given.symm.trans given'
    refine ⟨⟨among, reads'.trans reads.symm, slot, path, scope, given, reads⟩, ?_⟩
    intro global global'
    have value := handler_eq hands reads global
    rw [handler_eq hands' reads' global'] at value
    exact (Option.some.inj value).symm

theorem desk_slots_identify :
    ∃ compilation, (compile {} { root := .desk }).1 = .ok compilation ∧
      keys Node.desk.reached = [] ∧ handlerTotal Node.desk.reached < slotLimit ∧
      ∃ (root : Expr) (imports : ImportTable), compilation.script = assemble root imports {} ∧
        (root.bindCalls {}).Perm (handlerCalls (.ofApi {}) 0 (Node.desk.handlers [])) ∧
        (root.bindCalls {}).Nodup ∧
        ∀ (host : String → List Datum → Option Datum) (bindings : Bindings)
          (first second : HandOver), root.HandsOver host {} bindings first →
          root.HandsOver host {} bindings second → first.slot = second.slot →
          (first.arguments ∈ root.bindCalls {} ∧ second.arguments = first.arguments ∧
            ∃ slot path scope,
              (Node.desk.handlers [])[slot]? = some (path, scope) ∧
              first.arguments =
                [componentBinder "$cmp" path scope, .number (.ofUInt32 (.ofNat slot))]) ∧
          (¬ first.ReadsLocal → ¬ second.ReadsLocal → first.handler = second.handler) := by
  have compiles := compileWith_eq_ok (.ofApi {}) { root := .desk } (by decide)
  have fits : handlerTotal Node.desk.reached < slotLimit := by decide
  exact ⟨_, compiles, rfl, fits, compile_slots_identify { root := .desk } _ compiles rfl fits⟩

def buttons : Node :=
  .element
    { tag := "button"
      loop := some { path := ⟨"items", []⟩ }
      on := some [("click", ⟨"item", ["open"]⟩)] } []

namespace Buttons

def openCall : Expr := RuntimeApi.bindCall {} (.member (.identifier "item") "open") 0

def body : Expr :=
  RuntimeApi.elementCall {} "button" (.object [("on", .object [("click", openCall)])]) (.array [])

def root : Expr :=
  RuntimeApi.iterateCall {} (.member (.identifier "$cmp") "items") "item" "index" body

def item (name : String) : Datum := .record [("open", .host name)]

def bindings : Bindings :=
  RuntimeApi.bindings {} (.record [("items", .list [item "first", item "second"])]) .null .null {}

def handOver (name : String) : HandOver where
  arguments := [.member (.identifier "item") "open", .number (.ofUInt32 0)]
  around := [["item", "index"]]
  handler := .host name
  slot := .number (.ofUInt32 0)

variable (host : String → List Datum → Option Datum)

theorem body_visits (locals : Bindings) (around : List (List String)) :
    body.Visits host ⟨locals, around, openCall⟩ locals around := by
  have events : (Expr.object [("click", openCall)]).Visits host ⟨locals, around, openCall⟩
      locals around :=
    .part (by simp [Expr.evaluated, Expr.children]) .here
  have data : (Expr.object [("on", .object [("click", openCall)])]).Visits host
      ⟨locals, around, openCall⟩ locals around :=
    .part (by simp [Expr.evaluated, Expr.children]) events
  refine .part ?_ data
  simp [body, RuntimeApi.elementCall, RuntimeApi.primitive, Expr.evaluated, Expr.children]

theorem body_eval (position : Datum) (name : String) :
    body.eval host (("index", position) :: ("item", item name) :: bindings) =
      some (.element (.string "button")
        (.record [("on", .record [("click", .handle (.host name))])]) (.list [])) := by
  simp [body, openCall, RuntimeApi.elementCall, RuntimeApi.bindCall, RuntimeApi.primitive,
    bindings, RuntimeApi.bindings, RuntimeApi.params, RuntimeApi.runtime, item, List.lookup_cons,
    Datum.read]

theorem calls : ((Expr.identifier "$api").member "i").eval host bindings =
    some (.primitive .iterate) := by
  rw [Expr.eval_member, Expr.eval_identifier]
  rfl

theorem passes :
    [(Expr.identifier "$cmp").member "items", .function ["item", "index"] [.returns body]].mapM
        (Expr.eval host bindings) =
      some [.list [item "first", item "second"],
        .closure ["item", "index"] [.returns body] bindings] := by
  rw [List.mapM_cons, List.mapM_cons, Expr.eval_member, Expr.eval_identifier, Expr.eval_function]
  rfl

theorem handsOver {position : Nat} {name : String}
    (here : [item "first", item "second"][position]? = some (item name)) :
    root.HandsOver host {} bindings (handOver name) := by
  let passed : List Datum := [item name, .number (.ofNat position)]
  have visits : root.Visits host
      ⟨callFrame ["item", "index"] passed ++ bindings, [["item", "index"]], openCall⟩ bindings [] :=
    .body (List.mem_cons_of_mem _ List.mem_cons_self) (calls host) (passes host)
      ⟨_, _, position, rfl, here, rfl⟩ (body_visits host _ _)
  refine ⟨_, _, visits, rfl, ?_⟩
  simp only [handOver, List.mapM_cons, List.mapM_nil, Expr.eval_member, Expr.eval_identifier,
    Expr.eval_number]
  rfl

theorem root_eval : (root.eval host bindings).isSome = true := by
  rw [root, RuntimeApi.iterateCall, RuntimeApi.primitive, Expr.eval_call, calls, passes]
  change ((Datum.primitive .iterate).apply host _).isSome = true
  rw [Datum.apply_iterate]
  simp [Datum.items?, body_eval]

end Buttons

-- One slot is passed with two handlers where the handler is read from the item of a loop.
theorem buttons_slots_apart :
    (compile {} { root := buttons }).1.map Compilation.script =
      .ok (assemble Buttons.root {} {}) ∧
    keys buttons.reached = [] ∧
    (Buttons.root.eval (fun _ _ => none) Buttons.bindings).isSome = true ∧
    ¬ Buttons.root.SlotsIdentify (fun _ _ => none) {} Buttons.bindings := by
  refine ⟨rfl, rfl, Buttons.root_eval _, fun identify => ?_⟩
  have first : Buttons.root.HandsOver (fun _ _ => none) {} Buttons.bindings _ :=
    Buttons.handsOver _ (show _[0]? = some (Buttons.item "first") from rfl)
  have second : Buttons.root.HandsOver (fun _ _ => none) {} Buttons.bindings _ :=
    Buttons.handsOver _ (show _[1]? = some (Buttons.item "second") from rfl)
  have same := Datum.host.inj (identify _ _ first second rfl)
  exact absurd same (by decide)

end RenderCompiler
