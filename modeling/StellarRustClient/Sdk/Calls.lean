import StellarRustClient.Sdk.Server

/-!
# Runs that start with a call

One lemma for each call as the crate writes it: a run of a function that starts with it has no reply
yet, or the reply is an error that the function returns, or the function goes on from the value in
the reply.
-/

namespace StellarRustClient

open Interaction

variable {sdk : Sdk} {α : Type} {t : List Exchange} {o : Outcome (Except SorobanUtilsError α)}

/-- The three ways a run can go at a call `c` whose reply is a result. -/
def StartsWith {β ε : Type} (mk : Except ε β → Exchange) (g : ε → SorobanUtilsError)
    (k : β → Async α) (t : List Exchange) (o : Outcome (Except SorobanUtilsError α)) : Prop :=
  (t = [] ∧ o = .running) ∨ (∃ e, t = [mk (.error e)] ∧ o = .returned (.error (g e))) ∨
    ∃ a t', t = mk (.ok a) :: t' ∧ Runs (k a).run t' o

section StartsWith

variable {β ε : Type} {mk : Except ε β → Exchange} {g : ε → SorobanUtilsError} {k : β → Async α}

theorem StartsWith.waiting : StartsWith mk g k [] .running :=
  .inl ⟨rfl, rfl⟩

theorem StartsWith.failed (e : ε) : StartsWith mk g k [mk (.error e)] (.returned (.error (g e))) :=
  .inr (.inl ⟨e, rfl, rfl⟩)

theorem StartsWith.reply (a : β) (h : Runs (k a).run t o) : StartsWith mk g k (mk (.ok a) :: t) o :=
  .inr (.inr ⟨a, t, rfl, h⟩)

end StartsWith

/-- `runs_request_bind` for the calls of the crate. -/
private theorem runs_call_bind {β ε : Type} {k : β → Async α} (c : Call)
    (f : Reply c → Except SorobanUtilsError β) (mk : Except ε β → Reply c)
    (hmk : Function.Surjective mk) (g : ε → SorobanUtilsError)
    (hok : ∀ a, f (mk (.ok a)) = .ok a) (herror : ∀ e, f (mk (.error e)) = .error (g e)) :
    Runs (Prog.ask c f >>= k).run t o ↔ StartsWith (fun r ↦ ⟨c, mk r⟩) g k t o :=
  runs_request_bind c f mk hmk g hok herror

theorem runs_getAccount_bind {address : String} {k : Account → Async α} :
    Runs (getAccount sdk address >>= k).run t o ↔
      StartsWith (fun r ↦ ⟨.getAccount address, r⟩) (rpcError sdk) k t o :=
  runs_call_bind (Call.getAccount address) (Except.mapError (rpcError sdk)) (fun r ↦ r)
    (fun r ↦ ⟨r, rfl⟩) (rpcError sdk) (fun _ ↦ rfl) fun _ ↦ rfl

theorem runs_prepare_bind {tx : Transaction} {k : Transaction → Async α} :
    Runs (Prog.ask (.prepareTransaction tx) (Except.mapError (simulationError sdk)) >>= k).run t o ↔
      StartsWith (fun r ↦ ⟨.prepareTransaction tx, r⟩) (simulationError sdk) k t o :=
  runs_call_bind (Call.prepareTransaction tx) (Except.mapError (simulationError sdk)) (fun r ↦ r)
    (fun r ↦ ⟨r, rfl⟩) (simulationError sdk) (fun _ ↦ rfl) fun _ ↦ rfl

theorem runs_simulate_bind {tx : Transaction} {k : SimulateTransactionResponse → Async α} :
    Runs (Prog.ask (.simulateTransaction tx) (Except.mapError (simulationError sdk)) >>= k).run
        t o ↔
      StartsWith (fun r ↦ ⟨.simulateTransaction tx, r⟩) (simulationError sdk) k t o :=
  runs_call_bind (Call.simulateTransaction tx) (Except.mapError (simulationError sdk)) (fun r ↦ r)
    (fun r ↦ ⟨r, rfl⟩) (simulationError sdk) (fun _ ↦ rfl) fun _ ↦ rfl

theorem runs_sendTransaction_bind {tx : Transaction} {k : SendTransactionResponse → Async α} :
    Runs (sendTransaction sdk tx >>= k).run t o ↔
      StartsWith (fun r ↦ ⟨.sendTransaction tx, r⟩) (rpcError sdk) k t o :=
  runs_call_bind (Call.sendTransaction tx) (Except.mapError (rpcError sdk)) (fun r ↦ r)
    (fun r ↦ ⟨r, rfl⟩) (rpcError sdk) (fun _ ↦ rfl) fun _ ↦ rfl

theorem runs_getTransaction_bind {hash : String} {k : GetTransactionResponse → Async α} :
    Runs (getTransaction sdk hash >>= k).run t o ↔
      StartsWith (fun r ↦ ⟨.getTransaction hash, r⟩) (rpcError sdk) k t o :=
  runs_call_bind (Call.getTransaction hash) (Except.mapError (rpcError sdk)) (fun r ↦ r)
    (fun r ↦ ⟨r, rfl⟩) (rpcError sdk) (fun _ ↦ rfl) fun _ ↦ rfl

theorem runs_sign_bind {signer : Signer} {tx : Transaction} {networkPassphrase : String}
    {k : Transaction → Async α} :
    Runs (signer.sign tx networkPassphrase >>= k).run t o ↔
      StartsWith (fun r ↦ ⟨.sign signer tx networkPassphrase, r⟩) id k t o :=
  runs_call_bind (Call.sign signer tx networkPassphrase) (fun r ↦ r) (fun r ↦ r)
    (fun r ↦ ⟨r, rfl⟩) id (fun _ ↦ rfl) fun _ ↦ rfl

theorem runs_buildSigner_bind {k : Signer → Async α} :
    Runs (Prog.ask .buildSigner (fun r ↦ r) >>= k).run t o ↔
      StartsWith (fun r ↦ ⟨.buildSigner, r⟩) id k t o :=
  runs_call_bind Call.buildSigner (fun r ↦ r) (fun r ↦ r)
    (fun r ↦ ⟨r, rfl⟩) id (fun _ ↦ rfl) fun _ ↦ rfl

end StellarRustClient
