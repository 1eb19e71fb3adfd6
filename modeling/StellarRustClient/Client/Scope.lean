import StellarRustClient.Client.WriteOp
import StellarRustClient.Deploy.Runs

/-!
# The scope of a signer

Every write method of the client is a scope: a signer is built, the body runs with it, and the
signer is dropped when the body has returned. `ScopeRun` lists the runs of a scope from the runs of
its body.
-/

namespace StellarRustClient

open Interaction

variable {α : Type}

/-- The runs of a scope whose body has the runs `P`. -/
inductive ScopeRun (P : Signer → List Exchange → Outcome (Except SorobanUtilsError α) → Prop) :
    List Exchange → Outcome (Except SorobanUtilsError α) → Prop
  | building : ScopeRun P [] .running
  | notBuilt (e : SorobanUtilsError) :
      ScopeRun P [⟨.buildSigner, .error e⟩] (.returned (.error e))
  | inside (signer : Signer) {t : List Exchange} {o : Outcome (Except SorobanUtilsError α)}
      (hbody : P signer t o) (ho : ∀ x, o ≠ .returned x) :
      ScopeRun P (⟨.buildSigner, .ok signer⟩ :: t) o
  | dropping (signer : Signer) {t : List Exchange} {x : Except SorobanUtilsError α}
      (hbody : P signer t (.returned x)) : ScopeRun P (⟨.buildSigner, .ok signer⟩ :: t) .running
  | dropped (signer : Signer) {t : List Exchange} {x : Except SorobanUtilsError α}
      (hbody : P signer t (.returned x)) :
      ScopeRun P (⟨.buildSigner, .ok signer⟩ :: (t ++ [⟨.dropSigner signer, ()⟩])) (.returned x)

theorem runs_withSigner {body : Signer → Async α} {t : List Exchange}
    {o : Outcome (Except SorobanUtilsError α)} :
    Runs (withSigner body).run t o ↔
      ScopeRun (fun signer t o ↦ Runs (body signer).run t o) t o := by
  rw [withSigner, runs_buildSigner_bind]
  constructor
  · intro h
    obtain ⟨rfl, rfl⟩ | ⟨e, rfl, rfl⟩ | ⟨signer, t, rfl, h₁⟩ := h
    · exact .building
    · exact .notBuilt e
    obtain ⟨hbody, rfl⟩ | ⟨hbody, rfl⟩ | ⟨x, hbody, rfl⟩ | ⟨t, x, r, rfl, hbody, rfl⟩ :=
      runs_ensuring.mp h₁
    · exact .inside signer hbody (by simp)
    · exact .inside signer hbody (by simp)
    · exact .dropping signer hbody
    · exact .dropped signer hbody
  · intro h
    cases h with
    | building => exact .waiting
    | notBuilt e => exact .failed e
    | @inside signer t o hbody ho =>
      refine .reply signer (runs_ensuring.mpr ?_)
      rcases o with _ | _ | x
      · exact .inl ⟨hbody, rfl⟩
      · exact .inr (.inl ⟨hbody, rfl⟩)
      · exact absurd rfl (ho x)
    | dropping signer hbody =>
      exact .reply signer (runs_ensuring.mpr (.inr (.inr (.inl ⟨_, hbody, rfl⟩))))
    | dropped signer hbody =>
      exact .reply signer (runs_ensuring.mpr (.inr (.inr (.inr ⟨_, _, (), rfl, hbody, rfl⟩))))

/-! ## The calls of a scope -/

/-- The calls that a scope makes on its own. -/
def IsScopeCall : Call → Prop
  | .buildSigner => True
  | .dropSigner _ => True
  | _ => False

/-- A trace `t`, bare or with the calls of a scope around it. -/
inductive InScope (t : List Exchange) : List Exchange → Prop
  | bare : InScope t t
  | inside (signer : Signer) : InScope t (⟨.buildSigner, .ok signer⟩ :: t)
  | dropped (signer : Signer) :
      InScope t (⟨.buildSigner, .ok signer⟩ :: (t ++ [⟨.dropSigner signer, ()⟩]))

namespace InScope

variable {t t' : List Exchange} (h : InScope t t')
include h

theorem mem_iff {x : Exchange} (hx : ¬ IsScopeCall x.1) : x ∈ t' ↔ x ∈ t := by
  cases h with
  | bare => exact Iff.rfl
  | inside signer =>
    have hbuild : x ≠ ⟨.buildSigner, .ok signer⟩ := fun h ↦ hx (h ▸ trivial)
    simp [hbuild]
  | dropped signer =>
    have hbuild : x ≠ ⟨.buildSigner, .ok signer⟩ := fun h ↦ hx (h ▸ trivial)
    have hdrop : x ≠ ⟨.dropSigner signer, ()⟩ := fun h ↦ hx (h ▸ trivial)
    simp [hbuild, hdrop]

theorem sends_eq : sends t' = sends t := by
  cases h with
  | bare => rfl
  | inside signer => rfl
  | dropped signer =>
    refine (sends_append t [⟨.dropSigner signer, ()⟩]).trans ?_
    exact List.append_nil _

theorem polledSuccess_iff {sdk : Sdk} {tx : Transaction} :
    PolledSuccess sdk tx t' ↔ PolledSuccess sdk tx t :=
  exists_congr fun _ ↦ and_congr_left' (h.mem_iff id)

end InScope

/-- A run of a scope has a run of its body in it, or has not come to the body. -/
theorem ScopeRun.exists_body
    {P : Signer → List Exchange → Outcome (Except SorobanUtilsError α) → Prop}
    {t : List Exchange} {o : Outcome (Except SorobanUtilsError α)} (h : ScopeRun P t o) :
    ((∀ x ∈ t, IsScopeCall x.1) ∧ ∀ a, o ≠ .returned (.ok a)) ∨
      ∃ signer t' o', P signer t' o' ∧ InScope t' t ∧ ∀ x, o = .returned x → o' = .returned x := by
  cases h with
  | building => exact .inl ⟨by simp, by simp⟩
  | notBuilt e => exact .inl ⟨by simp [IsScopeCall], by simp⟩
  | inside signer hbody ho => exact .inr ⟨signer, _, _, hbody, .inside signer, fun x hx ↦ hx⟩
  | dropping signer hbody => exact .inr ⟨signer, _, _, hbody, .inside signer, by simp⟩
  | dropped signer hbody => exact .inr ⟨signer, _, _, hbody, .dropped signer, fun x hx ↦ hx⟩

/-! ## Uploads through the client -/

/-- The exchanges of an upload through the client whose signer refuses. -/
def refusedUpload : List Exchange :=
  ⟨.buildSigner, .ok .sample⟩ :: ((unsignedUpload ++
    [⟨.sign .sample sampleUpload NetworkConfig.testnet.networkPassphrase, .error (.signer "")⟩]) ++
    [⟨.dropSigner .sample, ()⟩])

theorem runs_refusedUpload : Runs (Client.sample.perform .sample (.uploadWasm ⟨#[]⟩)).run
    refusedUpload (.returned (.error (.signer ""))) := by
  refine runs_except_map.mpr ⟨.returned (.error (.signer "")), runs_withSigner.mpr ?_, rfl⟩
  refine .dropped .sample (runs_uploadWasm.mpr ?_)
  exact .built (.uploadContractWasm ⟨#[]⟩) rfl
    (.submitted (.error (.other "")) (.leg ⟨"G", 7⟩ sampleUpload (.signFailed (.signer ""))))

/-- The exchanges of an upload through the client that succeeds. -/
def acceptedUpload : List Exchange :=
  ⟨.buildSigner, .ok .sample⟩ :: (uploadedRun ++ [⟨.dropSigner .sample, ()⟩])

theorem runs_acceptedUpload : Runs (Client.sample.perform .sample (.uploadWasm ⟨#[]⟩)).run
    acceptedUpload (.returned (.ok ())) := by
  refine runs_except_map.mpr ⟨.returned (.ok zeroHash), runs_withSigner.mpr ?_, rfl⟩
  exact .dropped .sample (runs_uploadWasm.mpr uploadRun_uploadedRun)

end StellarRustClient
