import ZeroCpu.Core.Devices
import ZeroCpu.Library.Ledger

/-!
# Interrupt requests

Reference: `include/zero_cpu/core/InterruptController.hpp`, `src/core/InterruptController.cpp`.

The controller keeps one queue for two ways of acknowledging, whose rules of deliverability depend on
tables that change between the calls. Every acknowledgement takes the oldest request that is
deliverable at that moment, so that the queue is a balanced ledger whatever is called in between.
-/

namespace ZeroCpu

open Library

namespace InterruptController

/-- `InterruptController::mask`. -/
def mask (controller : InterruptController) (vector : UInt8) : InterruptController :=
  { controller with masks := Function.update controller.masks vector true }

/-- `InterruptController::unmask`. -/
def unmask (controller : InterruptController) (vector : UInt8) : InterruptController :=
  { controller with masks := Function.update controller.masks vector false }

/-- `InterruptController::setVectorHandler`. -/
def setVectorHandler (controller : InterruptController) (vector : UInt8) (handlerAddress : ℕ) :
    InterruptController :=
  { controller with
    vectorTable := Function.update controller.vectorTable vector (some handlerAddress) }

/-- `InterruptController::clearVectorHandler`. -/
def clearVectorHandler (controller : InterruptController) (vector : UInt8) : InterruptController :=
  { controller with vectorTable := Function.update controller.vectorTable vector none }

/-! ## Calls -/

/-- The calls that change a controller, other than `clear`. -/
inductive Call where
  | request (vector : UInt8) (payload : Word) (source : Str)
  | acknowledge
  | acknowledgeFrom (vector : UInt8) (source : Str)
  | mask (vector : UInt8)
  | unmask (vector : UInt8)
  | setGlobalEnabled (enabled : Bool)
  | setVectorHandler (vector : UInt8) (handlerAddress : ℕ)
  | clearVectorHandler (vector : UInt8)

/-- A call on a controller, and the request it returns if it is an acknowledgement. -/
def Call.run : Call → Exec Str InterruptController (Option InterruptRequest)
  | .request vector payload source => do
      Exec.modify (·.request vector payload source)
      pure none
  | .acknowledge => do
      let controller ← Exec.get
      let (answer, controller) ← Exec.lift controller.acknowledge
      Exec.modify fun _ => controller
      pure (some answer)
  | .acknowledgeFrom vector source => do
      let controller ← Exec.get
      let (answer, controller) ← Exec.lift (controller.acknowledgeFrom vector source)
      Exec.modify fun _ => controller
      pure (some answer)
  | .mask vector => do
      Exec.modify (·.mask vector)
      pure none
  | .unmask vector => do
      Exec.modify (·.unmask vector)
      pure none
  | .setGlobalEnabled enabled => do
      Exec.modify (·.setGlobalEnabled enabled)
      pure none
  | .setVectorHandler vector handlerAddress => do
      Exec.modify (·.setVectorHandler vector handlerAddress)
      pure none
  | .clearVectorHandler vector => do
      Exec.modify (·.clearVectorHandler vector)
      pure none

/-- The request a call makes. -/
def Call.made : Call → Option InterruptRequest
  | .request vector payload source => some ⟨vector, payload, source⟩
  | _ => none

/-! ## Acknowledgement -/

/-- The rule of `acknowledge()`. -/
def Deliverable (controller : InterruptController) (request : InterruptRequest) : Prop :=
  controller.globalEnabled = true ∧ controller.masks request.vector = false
    ∧ controller.hasVectorHandler request.vector = true

/-- The rule of `acknowledge(vector, source)`. -/
def DeliverableFrom (controller : InterruptController) (vector : UInt8) (source : Str)
    (request : InterruptRequest) : Prop :=
  controller.globalEnabled = true ∧ controller.masks request.vector = false
    ∧ request.vector = vector ∧ request.source = source

/-- A call that takes the oldest deliverable request out of the queue, and throws without touching
the controller when there is none. -/
structure Acknowledges (deliverable : InterruptRequest → Prop) (call : Call)
    (controller : InterruptController) : Prop where
  returns : (∃ request ∈ controller.pending, deliverable request) → ∃ request rest,
    call.run controller = (.ok (some request), { controller with pending := rest })
      ∧ TakesOldest deliverable controller.pending request rest
  throws : (∀ request ∈ controller.pending, ¬ deliverable request) →
    ∃ e, call.run controller = (.error e, controller)

variable {controller : InterruptController}

/-- What `findDeliverable` and its caller do, for a rule given as a test. -/
theorem acknowledges_of_find {call : Call} {deliverable : InterruptRequest → Prop}
    (enabled : Bool) (test : InterruptRequest → Bool) (e : Str)
    (hrule : ∀ request, deliverable request ↔ enabled = true ∧ test request = true)
    (hrun : call.run controller
      = match (if enabled then controller.pending.find? test else none) with
        | none => (.error e, controller)
        | some request =>
            (.ok (some request), { controller with pending := controller.pending.eraseP test })) :
    Acknowledges deliverable call controller where
  returns := by
    rintro ⟨request, hmem, hdeliverable⟩
    obtain ⟨rfl, htest⟩ := (hrule request).mp hdeliverable
    rw [if_pos rfl] at hrun
    obtain ⟨oldest, holdest⟩ : ∃ oldest, controller.pending.find? test = some oldest :=
      Option.isSome_iff_exists.mp (List.find?_isSome.mpr ⟨request, hmem, htest⟩)
    rw [holdest] at hrun
    refine ⟨oldest, _, hrun, (TakesOldest.of_find? holdest).imp fun other _ => ?_⟩
    rw [hrule]
    exact (and_iff_right rfl).symm
  throws := by
    intro hnone
    have hfind : (if enabled then controller.pending.find? test else none) = none := by
      split_ifs with henabled
      · rw [List.find?_eq_none]
        exact fun request hmem htest => hnone request hmem ((hrule request).mpr ⟨henabled, htest⟩)
      · rfl
    rw [hfind] at hrun
    exact ⟨e, hrun⟩

/-- `acknowledge` takes the oldest deliverable request. -/
theorem acknowledges (controller : InterruptController) :
    Acknowledges controller.Deliverable .acknowledge controller := by
  refine acknowledges_of_find controller.globalEnabled controller.deliverable
    "No deliverable interrupt request" ?_ ?_
  · intro request
    rw [Deliverable, deliverable, Bool.and_eq_true, Bool.not_eq_true']
  · have hfind : controller.findDeliverable
        = if controller.globalEnabled then controller.pending.find? controller.deliverable
          else none := by
      rw [findDeliverable]
      cases controller.globalEnabled <;> rfl
    rw [Call.run, Exec.bind_of_ok (Exec.get_apply controller), Exec.bind_apply, Exec.lift_apply,
      InterruptController.acknowledge, hfind]
    generalize (if controller.globalEnabled then controller.pending.find? controller.deliverable
      else none) = found
    cases found <;> rfl

/-- `acknowledgeFrom` takes the oldest deliverable request of its vector and source. -/
theorem acknowledgesFrom (controller : InterruptController) (vector : UInt8) (source : Str) :
    Acknowledges (controller.DeliverableFrom vector source) (.acknowledgeFrom vector source)
      controller := by
  refine acknowledges_of_find (controller.globalEnabled && !controller.masks vector)
    (matching vector source) "No matching deliverable interrupt request" ?_ ?_
  · intro request
    rw [DeliverableFrom, matching, Bool.and_eq_true, Bool.and_eq_true, Bool.not_eq_true', beq_iff_eq,
      beq_iff_eq]
    constructor
    · rintro ⟨henabled, hmask, rfl, rfl⟩
      exact ⟨⟨henabled, hmask⟩, rfl, rfl⟩
    · rintro ⟨⟨henabled, hmask⟩, rfl, rfl⟩
      exact ⟨henabled, hmask, rfl, rfl⟩
  · have hfind : controller.findDeliverableFrom vector source
        = if controller.globalEnabled && !controller.masks vector then
            controller.pending.find? (matching vector source)
          else none := by
      rw [findDeliverableFrom]
      cases controller.globalEnabled <;> cases controller.masks vector <;> rfl
    rw [Call.run, Exec.bind_of_ok (Exec.get_apply controller), Exec.bind_apply, Exec.lift_apply,
      InterruptController.acknowledgeFrom, hfind]
    generalize (if controller.globalEnabled && !controller.masks vector then
      controller.pending.find? (matching vector source) else none) = found
    cases found <;> rfl

/-! ## Runs -/

/-- A controller, with the requests made to it and those it has acknowledged. -/
structure History where
  made : List InterruptRequest
  acknowledged : List InterruptRequest
  controller : InterruptController

/-- The history after one more call; a call that throws acknowledges nothing. -/
def History.call (history : History) (call : Call) : History where
  made := history.made ++ call.made.toList
  acknowledged := match call.run history.controller with
    | (.ok answer, _) => history.acknowledged ++ answer.toList
    | (.error _, _) => history.acknowledged
  controller := (call.run history.controller).2

/-- The history of a controller from now on: the requests that are pending count as made. -/
def history (controller : InterruptController) (calls : List Call) : History :=
  calls.foldl History.call ⟨controller.pending, [], controller⟩

/-- The queue of a history as a ledger. -/
def History.ledger (history : History) : Ledger InterruptRequest :=
  ⟨history.made, history.acknowledged, history.controller.pending⟩

/-- The requests of one vector and source are a class. -/
abbrev History.Balanced (history : History) : Prop :=
  history.ledger.Balanced fun (key : UInt8 × Str) => matching key.1 key.2

/-- Requests that match one query have one vector and source. -/
theorem eq_of_matching {vector : UInt8} {source : Str} {request other : InterruptRequest}
    (h : matching vector source request = true) (hother : matching vector source other = true) :
    request.vector = other.vector ∧ request.source = other.source := by
  simp only [matching, Bool.and_eq_true, beq_iff_eq] at h hother
  exact ⟨h.1.trans hother.1.symm, h.2.trans hother.2.symm⟩

/-- An acknowledgement that does not tell the requests of one vector and source apart keeps the
ledger balanced. -/
theorem History.Balanced.acknowledge {history : History} (h : history.Balanced) {call : Call}
    {deliverable : InterruptRequest → Prop} (hmade : call.made = none)
    (hacknowledges : Acknowledges deliverable call history.controller)
    (hrule : ∀ request other : InterruptRequest, request.vector = other.vector →
      request.source = other.source → deliverable other → deliverable request) :
    (history.call call).Balanced := by
  by_cases hsome : ∃ request ∈ history.controller.pending, deliverable request
  · obtain ⟨request, rest, hrun, htakes⟩ := hacknowledges.returns hsome
    have hcall : (history.call call).ledger
        = ⟨history.made, history.acknowledged ++ [request], rest⟩ := by
      rw [History.ledger, History.call, hmade, hrun, Option.toList_none, List.append_nil]
      rfl
    rw [History.Balanced, hcall]
    refine h.take htakes fun key other hother hrequest => ?_
    obtain ⟨hvector, hsource⟩ := eq_of_matching hother hrequest
    exact hrule other request hvector hsource htakes.accepted
  · have hnone : ∀ request ∈ history.controller.pending, ¬ deliverable request := fun request hmem hd =>
      hsome ⟨request, hmem, hd⟩
    obtain ⟨e, hrun⟩ := hacknowledges.throws hnone
    have hcall : (history.call call).ledger = history.ledger := by
      rw [History.ledger, History.call, hmade, hrun, Option.toList_none, List.append_nil]
      rfl
    rw [History.Balanced, hcall]
    exact h

/-- Any call keeps the history balanced. -/
theorem History.Balanced.call {history : History} (h : history.Balanced) (call : Call) :
    (history.call call).Balanced := by
  -- A call that makes no request and takes none leaves the ledger alone.
  have hquiet : ∀ call' : Call, call'.made = none →
      (history.call call').acknowledged = history.acknowledged →
      (history.call call').controller.pending = history.controller.pending →
      (history.call call').Balanced := by
    intro call' hmade hacknowledged hpending
    have hcall : (history.call call').ledger = history.ledger := by
      rw [History.ledger, hacknowledged, hpending, History.call, hmade, Option.toList_none,
        List.append_nil]
      rfl
    rw [History.Balanced, hcall]
    exact h
  cases call with
  | request vector payload source =>
    have hcall : (history.call (.request vector payload source)).ledger
        = ⟨history.made ++ [⟨vector, payload, source⟩], history.acknowledged,
          history.controller.pending ++ [⟨vector, payload, source⟩]⟩ := by
      simp only [History.ledger, History.call, Call.made, Call.run, Option.toList_some]
      exact congrArg (Ledger.mk _ · _) (List.append_nil _)
    rw [History.Balanced, hcall]
    exact h.put _
  | acknowledge =>
    refine h.acknowledge rfl (acknowledges _) fun request other hvector _ hother => ?_
    rw [Deliverable, hvector]
    exact hother
  | acknowledgeFrom vector source =>
    refine h.acknowledge rfl (acknowledgesFrom _ vector source) fun request other hv hs hother => ?_
    rw [DeliverableFrom, hv, hs]
    exact hother
  | mask vector => exact hquiet _ rfl (List.append_nil _) rfl
  | unmask vector => exact hquiet _ rfl (List.append_nil _) rfl
  | setGlobalEnabled enabled => exact hquiet _ rfl (List.append_nil _) rfl
  | setVectorHandler vector handlerAddress => exact hquiet _ rfl (List.append_nil _) rfl
  | clearVectorHandler vector => exact hquiet _ rfl (List.append_nil _) rfl

/-- Requests are neither lost nor duplicated by any sequence of calls, those of one vector and source
are acknowledged in the order in which they were made, and every acknowledgement takes the oldest
request that is deliverable at that moment. -/
theorem interrupt_requests_conserved (controller : InterruptController) (calls : List Call) :
    (history controller calls).Balanced
      ∧ Acknowledges (history controller calls).controller.Deliverable .acknowledge
        (history controller calls).controller
      ∧ ∀ vector source, Acknowledges
        ((history controller calls).controller.DeliverableFrom vector source)
        (.acknowledgeFrom vector source) (history controller calls).controller := by
  refine ⟨?_, acknowledges _, acknowledgesFrom _⟩
  have hrun : ∀ (calls : List Call) (h : History), h.Balanced → (calls.foldl History.call h).Balanced := by
    intro calls
    induction calls with
    | nil => exact fun _ h => h
    | cons call rest ih => exact fun h hbalanced => ih _ (hbalanced.call call)
  exact hrun calls _ (Ledger.Balanced.init controller.pending)

/-- A request for a vector without a handler is passed over, and acknowledged by its source. -/
example :
    let calls : List Call := [.request 3 1 [1], .request 4 2 [2], .setVectorHandler 4 512,
      .acknowledge, .acknowledge, .acknowledgeFrom 3 [1]]
    (history clear calls).acknowledged = [⟨4, 2, [2]⟩, ⟨3, 1, [1]⟩] := by
  decide

end InterruptController

end ZeroCpu
