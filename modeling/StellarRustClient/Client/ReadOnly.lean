import StellarRustClient.Client.ReadOp
import StellarRustClient.Invoke.ReadBack
import StellarRustClient.Network

/-!
# Reading without a trace

The read methods need no signer and submit nothing. `reads_invisible` is what that comes to in a
network that others write to: whatever readers there are can be left out of a schedule, and what is
left is a schedule in which the others make the same calls, with the same replies, and the network
comes to the same state.
-/

namespace StellarRustClient

open Interaction

variable {sdk : Sdk} {client : Client} {ops : List ReadOp} {t : List Exchange}

/-- Read methods that are called one after the other, the last one perhaps still running. -/
inductive ReadSession (sdk : Sdk) (client : Client) : List ReadOp → List Exchange → Prop
  | nil : ReadSession sdk client [] []
  | last (op : ReadOp) {t : List Exchange} {o : Outcome (Except SorobanUtilsError Unit)}
      (hrun : Runs (client.read sdk op).run t o) : ReadSession sdk client [op] t
  | cons (op : ReadOp) {ops : List ReadOp} {t₁ t₂ : List Exchange}
      {x : Except SorobanUtilsError Unit}
      (hrun : Runs (client.read sdk op).run t₁ (.returned x))
      (hrest : ReadSession sdk client ops t₂) : ReadSession sdk client (op :: ops) (t₁ ++ t₂)

theorem isReadCall_of_runs {op : ReadOp} {o : Outcome (Except SorobanUtilsError Unit)}
    (h : Runs (client.read sdk op).run t o) : ∀ x ∈ t, IsReadCall x.1 := by
  have htriple : Triple World.record (fun _ x ↦ IsReadCall x.1) (fun _ ↦ True)
      (client.read sdk op) (fun _ _ ↦ True) fun _ _ ↦ True :=
    ReadOp.triple (fun c f hc ↦ .ask_record (fun _ _ _ ↦ hc) (fun _ _ _ _ _ ↦ trivial)
      fun _ _ _ _ _ ↦ trivial) client op
  intro x hx
  obtain ⟨u, v, ht⟩ := List.append_of_mem hx
  exact (htriple.of_record trivial h).1 u x v ht

theorem ReadSession.isReadCall (h : ReadSession sdk client ops t) : ∀ x ∈ t, IsReadCall x.1 := by
  induction h with
  | nil => simp
  | last op hrun => exact isReadCall_of_runs hrun
  | cons op hrun _ ih => exact List.forall_mem_append.mpr ⟨isReadCall_of_runs hrun, ih⟩

/-- The calls of the read methods leave a network as it is. -/
theorem Network.after_of_isReadCall {σ : Type*} {x : Exchange} (hx : IsReadCall x.1)
    (s : Network σ) : s.after x = s := by
  obtain ⟨c, r⟩ := x
  cases c <;> first | rfl | exact hx.elim

/-- **Readers are not seen.** In any schedule the threads that only read make no calls but those of
the read methods; and without them it is a schedule of the others, each with the exchanges that it
had, after which the network can go on to the same state. -/
theorem reads_invisible {σ : Type*} (sdk : Sdk) (P : Protocol σ) (ι : Type*) [DecidableEq ι]
    (writer : ι → Bool) (clients : ι → Client) (ops : ι → List ReadOp) (s s' : Network σ)
    (h : Schedule ι Call Reply (Network σ))
    (hpath : (networkWorld sdk P).Path s (h.map Prod.snd) s')
    (hreads : ∀ i, writer i = false → ReadSession sdk (clients i) (ops i) (h.traceOf i)) :
    (∀ i, writer i = false → ∀ x ∈ h.traceOf i, IsReadCall x.1) ∧
    ∃ s₁, (networkWorld sdk P).Path s ((h.filter fun y ↦ writer y.1).map Prod.snd) s₁ ∧
      (networkWorld sdk P).drift s₁ s' ∧
      ∀ i, writer i = true → Schedule.traceOf (h.filter fun y ↦ writer y.1) i = h.traceOf i := by
  have hcalls (i : ι) (hi : writer i = false) : ∀ x ∈ h.traceOf i, IsReadCall x.1 :=
    (hreads i hi).isReadCall
  have hquiet : ∀ y ∈ h, writer y.1 = false → ∀ a b, (networkWorld sdk P).step a y.2.2 b →
      b = a := by
    rintro ⟨i, a, x⟩ hy hi b b' ⟨-, rfl⟩
    have hx : x ∈ h.traceOf i := List.mem_map_of_mem (mem_actionsOf.mpr hy)
    exact Network.after_of_isReadCall (hcalls i hi x hx) b
  obtain ⟨s₁, hpath, hdrift⟩ := Schedule.exists_path_filter writer
    (fun _ ↦ Relation.ReflTransGen.refl) (fun _ _ _ ↦ Relation.ReflTransGen.trans) hquiet hpath
  exact ⟨hcalls, s₁, hpath, hdrift, fun i hi ↦ Schedule.traceOf_filter hi⟩

/-! ## A counter that is moved and read -/

namespace Counter

/-- A client that reads the counter. -/
def reader : Client where
  network := .testnet
  publicKey := "G"
  pollCfg := .default

theorem readSession : ReadSession .sample reader [.readContract "C" "f" []]
    (Schedule.traceOf (schedule ++ reading) false) :=
  .last _ (runs_except_map.mpr ⟨_, runs_reading, rfl⟩)

/-- The invocation without the reading after it. -/
theorem reading_invisible :
    (∀ i, id i = false → ∀ x ∈ Schedule.traceOf (schedule ++ reading) i, IsReadCall x.1) ∧
    ∃ s₁, world.Path start (((schedule ++ reading).filter fun y ↦ id y.1).map Prod.snd) s₁ ∧
      world.drift s₁ invoked ∧
      ∀ i, id i = true → Schedule.traceOf ((schedule ++ reading).filter fun y ↦ id y.1) i =
        Schedule.traceOf (schedule ++ reading) i := by
  refine reads_invisible .sample ContractMachine.counter.protocol Bool id (fun _ ↦ reader)
    (fun _ ↦ [.readContract "C" "f" []]) start invoked (schedule ++ reading) ?_ fun i hi ↦ ?_
  · rw [List.map_append]
    exact path_schedule.append path_reading
  · cases i with
    | false => exact readSession
    | true => cases hi

end Counter

end StellarRustClient
