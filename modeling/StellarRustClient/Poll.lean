import StellarRustClient.Sdk.Server

/-!
# Polling

`poll_transaction_status`: ask for the status of a transaction until it is no longer `NotFound`,
at a fixed interval, until a deadline.

The deadline is computed once, before the first query, and the addition panics when the instant is
not representable. Inside the loop the clock is read after a `NotFound` reply and before the next
sleep.
-/

namespace StellarRustClient

open Interaction

/-- `tokio::time::Instant::now()`. -/
def now : Async Instant :=
  Prog.ask .now .ok

/-- `tokio::time::sleep(duration).await`. -/
def sleep (duration : Duration) : Async Unit :=
  Prog.ask (.sleep duration) .ok

variable (sdk : Sdk)

/-- `Instant + Duration`. -/
def instantAdd (start : Instant) (duration : Duration) : Async Instant :=
  if start + duration.nanos ≤ sdk.instantMax then pure (start + duration.nanos)
  else Prog.crash "overflow when adding duration to instant"

/-- One round of the loop: the response is looked at, and asked for again while `NotFound`. -/
def pollRound (hash : String) (cfg : PollConfig) (deadline : Instant)
    (response : GetTransactionResponse) :
    Async (GetTransactionResponse ⊕ GetTransactionResponse) :=
  match response.status with
  | .notFound => do
    -- The deadline is looked at only after a reply; the sleep that follows may end past it.
    let t ← now
    if deadline ≤ t then
      throw (.timeout hash)
    else do
      sleep cfg.interval
      let response ← getTransaction sdk hash
      pure (.inl response)
  | _ => pure (.inr response)

/-- `poll_transaction_status`. -/
def pollTransactionStatus (hash : String) (cfg : PollConfig) : Async GetTransactionResponse := do
  let start ← now
  let deadline ← instantAdd sdk start cfg.timeout
  let response ← getTransaction sdk hash
  let response ← Prog.iterate (pollRound sdk hash cfg deadline) response
  match response.status with
  | .success => pure response
  | other => throw (.transactionFailed hash other.debug)

end StellarRustClient
