import RenderCompiler.Proofs.Script.Datum

set_option autoImplicit false

namespace RenderCompiler

section Answers

variable {α β : Type}

/-- The answer is the result from some number of steps on. -/
def ComesTo (answer : Nat → Option α) (result : Option α) : Prop :=
  ∃ start, ∀ steps, start ≤ steps → answer steps = result

def Extends (first second : Option α) : Prop := ∀ value, first = some value → second = some value

theorem Extends.refl (answer : Option α) : Extends answer answer := fun _ answered => answered

theorem Extends.bind {first second : Option α} {next next' : α → Option β}
    (extended : Extends first second) (each : ∀ value, Extends (next value) (next' value)) :
    Extends (first.bind next) (second.bind next') := by
  intro result answered
  obtain ⟨value, here, later⟩ := Option.bind_eq_some_iff.mp answered
  exact Option.bind_eq_some_iff.mpr ⟨value, extended value here, each value result later⟩

theorem Extends.mapM {step step' : α → Option β}
    (each : ∀ item, Extends (step item) (step' item)) (items : List α) :
    Extends (items.mapM step) (items.mapM step') := by
  induction items with
  | nil => exact .refl _
  | cons item rest ih =>
    rw [List.mapM_cons, List.mapM_cons]
    exact (each item).bind fun _ => ih.bind fun _ => .refl _

namespace ComesTo

theorem const (result : Option α) : ComesTo (fun _ => result) result := ⟨0, fun _ _ => rfl⟩

theorem unique {answer : Nat → Option α} {first second : Option α} (here : ComesTo answer first)
    (there : ComesTo answer second) : first = second := by
  obtain ⟨start, before⟩ := here
  obtain ⟨start', after⟩ := there
  rw [← before (start + start') (by omega), ← after (start + start') (by omega)]

theorem later {answer : Nat → Option α} {result : Option α}
    (comes : ComesTo (fun steps => answer (steps + 1)) result) : ComesTo answer result := by
  obtain ⟨start, after⟩ := comes
  refine ⟨start + 1, fun steps enough => ?_⟩
  have same : answer (steps - 1 + 1) = result := after (steps - 1) (by omega)
  rwa [show steps - 1 + 1 = steps by omega] at same

theorem bind {answer : Nat → Option α} {next : Nat → α → Option β} {result : Option α}
    {result' : α → Option β} (comes : ComesTo answer result)
    (each : ∀ value, ComesTo (next · value) (result' value)) :
    ComesTo (fun steps => (answer steps).bind (next steps)) (result.bind result') := by
  obtain ⟨start, first⟩ := comes
  cases result with
  | none => exact ⟨start, fun steps enough => by simp [first steps enough]⟩
  | some value =>
    obtain ⟨start', second⟩ := each value
    refine ⟨start + start', fun steps enough => ?_⟩
    simp only [first steps (by omega), Option.bind_some, second steps (by omega)]

theorem mapM {step : Nat → α → Option β} {result : α → Option β}
    (each : ∀ item, ComesTo (step · item) (result item)) (items : List α) :
    ComesTo (fun steps => items.mapM (step steps)) (items.mapM result) := by
  induction items with
  | nil => exact const _
  | cons item rest ih =>
    simp only [List.mapM_cons]
    exact (each item).bind fun _ => ih.bind fun _ => const _

end ComesTo

open Classical in
noncomputable def inTheEnd (answer : Nat → Option α) : Option α :=
  if found : ∃ steps, (answer steps).isSome then answer found.choose else none

theorem comesTo_inTheEnd {answer : Nat → Option α}
    (extend : ∀ steps, Extends (answer steps) (answer (steps + 1))) :
    ComesTo answer (inTheEnd answer) := by
  unfold inTheEnd
  split
  next found =>
    refine ⟨found.choose, fun steps enough => ?_⟩
    obtain ⟨value, answered⟩ := Option.isSome_iff_exists.mp found.choose_spec
    rw [answered]
    -- More steps leave an answer that was found as it is.
    induction enough with
    | refl => exact answered
    | step enough ih => exact extend _ value ih
  next unfound =>
    refine ⟨0, fun steps _ => ?_⟩
    cases answered : answer steps with
    | none => rfl
    | some value => exact absurd ⟨steps, by rw [answered]; rfl⟩ unfound

end Answers

section Definition

variable (host : String → List Datum → Option Datum)

mutual

def Expr.evalWithin : Nat → Bindings → Expr → Option Datum
  | 0, _, _ => none
  | steps + 1, bindings, expr =>
    let eval := Expr.evalWithin steps bindings
    match expr with
    | .identifier name => bindings.lookup name
    | .string value => some (.string value)
    | .number value => some (.number value)
    | .boolean value => some (.boolean value)
    | .null => some .null
    | .member object property => do
      let object ← eval object
      return object.read property
    | .call callee arguments => do
      let callee ← eval callee
      let arguments ← arguments.mapM eval
      Datum.applyWithin steps callee arguments
    | .array elements => do
      let items ← elements.mapM eval
      return .list items
    | .object properties => do
      let fields ← properties.mapM fun property => do return (property.1, ← eval property.2)
      return .record fields
    | .conditional test consequent alternate => do
      let test ← eval test
      if test.truthy then eval consequent else eval alternate
    | .not argument => do
      let argument ← eval argument
      return .boolean !argument.truthy
    | .strictEqual left right => do
      let left ← eval left
      let right ← eval right
      let same ← left.same right
      return .boolean same
    | .or left right => do
      let left ← eval left
      if left.truthy then return left else eval right
    | .function params body => some (.closure params body bindings)

-- The runtime repeats a function over a list with each item and its index.
def Datum.applyWithin : Nat → Datum → List Datum → Option Datum
  | 0, _, _ => none
  | steps + 1, callee, arguments =>
    match callee, arguments with
    | .primitive .element, [tag, data, children] => some (.element tag data children)
    | .primitive .text, [value] => some (.text value)
    | .primitive .customElement, [tag, constructor, data] => some (.custom tag constructor data)
    | .primitive .iterate, [value, each] => do
      let items ← value.items?
      let results ← items.zipIdx.mapM fun item =>
        Datum.applyWithin steps each [item.1, .number (.ofNat item.2)]
      return .list (results.flatMap Datum.spread)
    | .primitive .flatten, [value] => some (.list value.leaves)
    | .primitive .bind, [handler, _] => some (.handle handler)
    | .closure params body bindings, arguments =>
      -- The last parameter of a name counts, and what is not passed is undefined.
      let passed := params.zip (arguments ++ params.map fun _ => .undefined)
      match body with
      | [] => some .undefined
      | .returns result :: _ => Expr.evalWithin steps (passed.reverse ++ bindings) result
      | _ => none
    | .host name, arguments => host name arguments
    | _, _ => none

end

def callFrame (params : List String) (passed : List Datum) : Bindings :=
  (params.zip (passed ++ params.map fun _ => .undefined)).reverse

noncomputable def Expr.eval (bindings : Bindings) (expr : Expr) : Option Datum :=
  inTheEnd fun steps => expr.evalWithin host steps bindings

noncomputable def Datum.apply (callee : Datum) (arguments : List Datum) : Option Datum :=
  inTheEnd fun steps => callee.applyWithin host steps arguments

end Definition

section Equations

variable (host : String → List Datum → Option Datum)

section More

variable {steps : Nat}
  (eval : ∀ bindings expr, Extends (Expr.evalWithin host steps bindings expr)
    (Expr.evalWithin host (steps + 1) bindings expr))
  (apply : ∀ callee arguments, Extends (Datum.applyWithin host steps callee arguments)
    (Datum.applyWithin host (steps + 1) callee arguments))

include eval apply

theorem Expr.evalWithin_extends (bindings : Bindings) (expr : Expr) :
    Extends (expr.evalWithin host (steps + 1) bindings)
      (expr.evalWithin host (steps + 2) bindings) := by
  cases expr with
  | member object property => exact (eval bindings object).bind fun _ => .refl _
  | call callee arguments =>
    exact (eval bindings callee).bind fun value =>
      (Extends.mapM (eval bindings) arguments).bind fun values => apply value values
  | array elements => exact (Extends.mapM (eval bindings) elements).bind fun _ => .refl _
  | object properties =>
    have each (property : String × Expr) :=
      (eval bindings property.2).bind fun value => .refl (some (property.1, value))
    exact (Extends.mapM each properties).bind fun _ => .refl _
  | conditional test consequent alternate =>
    refine (eval bindings test).bind fun value => ?_
    split
    · exact eval bindings consequent
    · exact eval bindings alternate
  | not argument => exact (eval bindings argument).bind fun _ => .refl _
  | strictEqual left right =>
    exact (eval bindings left).bind fun _ => (eval bindings right).bind fun _ => .refl _
  | or left right =>
    refine (eval bindings left).bind fun value => ?_
    split
    · exact .refl _
    · exact eval bindings right
  | _ => exact .refl _

theorem Datum.applyWithin_extends (callee : Datum) (arguments : List Datum) :
    Extends (callee.applyWithin host (steps + 1) arguments)
      (callee.applyWithin host (steps + 2) arguments) := by
  unfold Datum.applyWithin
  split
  next tag data children => exact .refl _
  next value => exact .refl _
  next tag constructor data => exact .refl _
  next value each =>
    have results (items : List (Datum × Nat)) :=
      Extends.mapM (fun item : Datum × Nat => apply each [item.1, .number (.ofNat item.2)]) items
    exact (Extends.refl value.items?).bind fun items =>
      (results items.zipIdx).bind fun _ => .refl _
  next value => exact .refl _
  next handler slot => exact .refl _
  next params body bindings arguments =>
    split
    next => exact .refl _
    next result rest => exact eval _ result
    next => exact .refl _
  next name arguments => exact .refl _
  next => exact .refl _

end More

theorem within_extends (steps : Nat) :
    (∀ bindings expr, Extends (Expr.evalWithin host steps bindings expr)
      (Expr.evalWithin host (steps + 1) bindings expr)) ∧
    ∀ callee arguments, Extends (Datum.applyWithin host steps callee arguments)
      (Datum.applyWithin host (steps + 1) callee arguments) := by
  induction steps with
  | zero => exact ⟨fun _ _ _ => nofun, fun _ _ _ => nofun⟩
  | succ steps ih =>
    obtain ⟨eval, apply⟩ := ih
    constructor
    · exact Expr.evalWithin_extends host eval apply
    · exact Datum.applyWithin_extends host eval apply

theorem Expr.eval_comesTo (bindings : Bindings) (expr : Expr) :
    ComesTo (fun steps => expr.evalWithin host steps bindings) (expr.eval host bindings) :=
  comesTo_inTheEnd fun steps => (within_extends host steps).1 bindings expr

theorem Datum.apply_comesTo (callee : Datum) (arguments : List Datum) :
    ComesTo (fun steps => callee.applyWithin host steps arguments)
      (callee.apply host arguments) :=
  comesTo_inTheEnd fun steps => (within_extends host steps).2 callee arguments

variable (bindings : Bindings)

namespace Expr

theorem eval_eq {expr : Expr} {result : Option Datum}
    (comes : ComesTo (fun steps => expr.evalWithin host (steps + 1) bindings) result) :
    expr.eval host bindings = result :=
  (eval_comesTo host bindings expr).unique comes.later

@[simp] theorem eval_identifier (name : String) :
    (identifier name).eval host bindings = bindings.lookup name :=
  eval_eq host bindings (.const _)

@[simp] theorem eval_string (value : String) :
    (string value).eval host bindings = some (.string value) :=
  eval_eq host bindings (.const _)

@[simp] theorem eval_number (value : Binary64) :
    (number value).eval host bindings = some (.number value) :=
  eval_eq host bindings (.const _)

@[simp] theorem eval_boolean (value : Bool) :
    (boolean value).eval host bindings = some (.boolean value) :=
  eval_eq host bindings (.const _)

@[simp] theorem eval_null : null.eval host bindings = some .null :=
  eval_eq host bindings (.const _)

@[simp] theorem eval_member (object : Expr) (property : String) :
    (member object property).eval host bindings =
      (object.eval host bindings).map (·.read property) := by
  have comes := (eval_comesTo host bindings object).bind fun value =>
    .const (some (value.read property))
  rw [Option.map_eq_bind]
  exact eval_eq host bindings comes

theorem eval_members (start : Expr) (properties : List String) :
    (start.members properties).eval host bindings =
      (start.eval host bindings).map (·.readAll properties) := by
  induction properties generalizing start with
  | nil => cases h : start.eval host bindings <;> simp [h, Datum.readAll]
  | cons property rest ih =>
    rw [members_cons, ih, eval_member, Option.map_map]
    rfl

@[simp] theorem eval_call (callee : Expr) (arguments : List Expr) :
    (call callee arguments).eval host bindings = (do
      (← callee.eval host bindings).apply host (← arguments.mapM (eval host bindings))) := by
  have values := ComesTo.mapM (eval_comesTo host bindings) arguments
  exact eval_eq host bindings ((eval_comesTo host bindings callee).bind fun value =>
    values.bind fun passed => value.apply_comesTo host passed)

@[simp] theorem eval_array (elements : List Expr) :
    (array elements).eval host bindings =
      (elements.mapM (eval host bindings)).map .list := by
  have values := ComesTo.mapM (eval_comesTo host bindings) elements
  rw [Option.map_eq_bind]
  exact eval_eq host bindings (values.bind fun _ => .const _)

@[simp] theorem eval_object (properties : List (String × Expr)) :
    (object properties).eval host bindings = (do
      let fields ← properties.mapM fun (name, expr) => do
        return (name, ← expr.eval host bindings)
      return .record fields) := by
  have fields := ComesTo.mapM (fun property : String × Expr =>
    (eval_comesTo host bindings property.2).bind fun value => .const (some (property.1, value)))
    properties
  exact eval_eq host bindings (fields.bind fun _ => .const _)

@[simp] theorem eval_conditional (test consequent alternate : Expr) :
    (conditional test consequent alternate).eval host bindings = (do
      if (← test.eval host bindings).truthy then consequent.eval host bindings
      else alternate.eval host bindings) := by
  refine eval_eq host bindings ((eval_comesTo host bindings test).bind fun value => ?_)
  split
  · exact eval_comesTo host bindings consequent
  · exact eval_comesTo host bindings alternate

@[simp] theorem eval_not (argument : Expr) :
    (not argument).eval host bindings =
      (argument.eval host bindings).map fun value => .boolean !value.truthy := by
  rw [Option.map_eq_bind]
  exact eval_eq host bindings ((eval_comesTo host bindings argument).bind fun _ => .const _)

@[simp] theorem eval_strictEqual (left right : Expr) :
    (strictEqual left right).eval host bindings = (do
      return .boolean (← (← left.eval host bindings).same (← right.eval host bindings))) :=
  eval_eq host bindings ((eval_comesTo host bindings left).bind fun _ =>
    (eval_comesTo host bindings right).bind fun _ => .const _)

@[simp] theorem eval_or (left right : Expr) :
    (or left right).eval host bindings = (do
      let value ← left.eval host bindings
      if value.truthy then return value else right.eval host bindings) := by
  refine eval_eq host bindings ((eval_comesTo host bindings left).bind fun value => ?_)
  split
  · exact .const _
  · exact eval_comesTo host bindings right

@[simp] theorem eval_function (params : List String) (body : List Stmt) :
    (function params body).eval host bindings = some (.closure params body bindings) :=
  eval_eq host bindings (.const _)

end Expr

namespace Datum

variable (value tag data children constructor : Datum)

theorem apply_eq {callee : Datum} {arguments : List Datum} {result : Option Datum}
    (comes : ComesTo (fun steps => callee.applyWithin host (steps + 1) arguments) result) :
    callee.apply host arguments = result :=
  (apply_comesTo host callee arguments).unique comes.later

@[simp] theorem apply_element :
    (primitive .element).apply host [tag, data, children] = some (.element tag data children) :=
  apply_eq host (.const _)

@[simp] theorem apply_text : (primitive .text).apply host [value] = some (.text value) :=
  apply_eq host (.const _)

@[simp] theorem apply_customElement :
    (primitive .customElement).apply host [tag, constructor, data] =
      some (.custom tag constructor data) :=
  apply_eq host (.const _)

@[simp] theorem apply_flatten :
    (primitive .flatten).apply host [value] = some (.list value.leaves) :=
  apply_eq host (.const _)

@[simp] theorem apply_bind (handler slot : Datum) :
    (primitive .bind).apply host [handler, slot] = some (.handle handler) :=
  apply_eq host (.const _)

theorem apply_closure (params : List String) (result : Expr) (rest : List Stmt)
    (passed : List Datum) :
    (closure params (.returns result :: rest) bindings).apply host passed =
      result.eval host (callFrame params passed ++ bindings) :=
  apply_eq host (Expr.eval_comesTo host _ result)

theorem apply_loopFunction (item index : String) (body : Expr) (first second : Datum) :
    (closure [item, index] [.returns body] bindings).apply host [first, second] =
      body.eval host ((index, second) :: (item, first) :: bindings) :=
  apply_closure host bindings [item, index] body [] [first, second]

theorem apply_iterate (item index : String) (body : Expr) :
    (primitive .iterate).apply host [value, .closure [item, index] [.returns body] bindings] = (do
      let items ← value.items?
      let results ← items.zipIdx.mapM fun (value, position) =>
        body.eval host ((index, .number (.ofNat position)) :: (item, value) :: bindings)
      return .list (results.flatMap spread)) := by
  have each (entry : Datum × Nat) :=
    apply_comesTo host (closure [item, index] [.returns body] bindings)
      [entry.1, .number (.ofNat entry.2)]
  simp only [apply_loopFunction] at each
  exact apply_eq host ((ComesTo.const value.items?).bind fun items =>
    (ComesTo.mapM each items.zipIdx).bind fun _ => .const _)

end Datum

end Equations

end RenderCompiler
