import KafkaGuide.Lib.Tries
import KafkaGuide.Payments
/-!
# PaymentsRetry — `retry_with_backoff` and its caller (`07-error-handling-and-retry/app/{retry,consumer}.py`)

The `for` loop over `range(max_retries)`, its `last_exception` and the `raise` after it, as a function of a stream of
outcomes of `func`.  With one round at least it stops at its first success or its last failure (`retry_ends`); with none
it raises `None`.  The payments consumer is this function cut at its awaits (`payment_handled`).
-/
namespace KafkaGuide
namespace Payments

open Tries (Run Verdict)

/-- What `retry_with_backoff` raises. -/
inductive Raised (ε : Type) where
  | exc (e : ε)
  | typeError
  | overflowError

variable {ε α : Type}

/-- `delay`, `jitter` being the value of `random.uniform(0, 0.5)`: an integer of 2 ** 1024 or more is no factor of a
float. -/
def delay? (baseDelay : ℚ) (attempt : Nat) (jitter : ℚ) : Option ℚ :=
  if attempt < 1024 then some (baseDelay * 2 ^ attempt + jitter) else none

/-- `raise last_exception`. -/
def raiseLast : Option ε → Raised ε
  | some e => .exc e
  | none => .typeError

section Rounds

variable (maxRetries : Int) (baseDelay : ℚ) (outcomes : Nat → Except ε α) (jitter : Nat → ℚ)

/-- The `for` loop over what is left of its range, and the `raise` after it. -/
def retryRounds : List Nat → Option ε → Run (Except (Raised ε) α) ℚ
  | [], lastException => ⟨[], .error (raiseLast lastException)⟩
  | attempt :: rest, _ =>
    match outcomes attempt with
    | .ok result => .once (.ok result)
    | .error e =>
      if attempt < maxRetries - 1 then
        match delay? baseDelay attempt (jitter attempt) with
        | some d => (retryRounds rest (some e)).after d
        | none => .once (.error .overflowError)
      else
        let run := retryRounds rest (some e)
        ⟨.call :: run.events, run.result⟩

def retryWithBackoff : Run (Except (Raised ε) α) ℚ :=
  retryRounds maxRetries baseDelay outcomes jitter (List.range maxRetries.toNat) none

/-- What the loop makes of the outcome of a round. -/
def verdict (attempt : Nat) : Verdict (Except (Raised ε) α) ℚ :=
  match outcomes attempt with
  | .ok result => .stop (.ok result)
  | .error e =>
    if attempt < maxRetries - 1 then
      match delay? baseDelay attempt (jitter attempt) with
      | some d => .again d
      | none => .stop (.error .overflowError)
    else .stop (.error (.exc e))

variable {maxRetries baseDelay outcomes jitter}

theorem retryRounds_ends : ∀ (n k : Nat) (last : Option ε), (k : Int) + (n + 1) = maxRetries →
    Tries.Ends (verdict maxRetries baseDelay outcomes jitter) k
      (retryRounds maxRetries baseDelay outcomes jitter (List.range' k (n + 1)) last) := by
  intro n
  induction n with
  | zero =>
    intro k last hk
    rw [List.range'_one]
    unfold retryRounds
    cases houtcome : outcomes k with
    | ok result =>
      refine .stop ?_
      simp only [verdict, houtcome]
    | error e =>
      have hlast : ¬ (k : Int) < maxRetries - 1 := by omega
      dsimp only
      rw [if_neg hlast]
      refine .stop ?_
      simp only [verdict, houtcome, if_neg hlast]
      rfl
  | succ n ih =>
    intro k last hk
    rw [List.range'_succ]
    unfold retryRounds
    cases houtcome : outcomes k with
    | ok result =>
      refine .stop ?_
      simp only [verdict, houtcome]
    | error e =>
      have hlt : (k : Int) < maxRetries - 1 := by omega
      dsimp only
      rw [if_pos hlt]
      cases hdelay : delay? baseDelay k (jitter k) with
      | some d =>
        refine .again ?_ (ih (k + 1) (some e) (by omega))
        simp only [verdict, houtcome, if_pos hlt, hdelay]
      | none =>
        refine .stop ?_
        simp only [verdict, houtcome, if_pos hlt, hdelay]

variable (baseDelay outcomes jitter) in
/-- **With one round at least, the loop is that of its verdicts.** -/
theorem retry_ends (hpos : 1 ≤ maxRetries) : Tries.Ends (verdict maxRetries baseDelay outcomes jitter) 0
    (retryWithBackoff maxRetries baseDelay outcomes jitter) := by
  obtain ⟨n, hn⟩ : ∃ n : Nat, maxRetries.toNat = n + 1 := ⟨maxRetries.toNat - 1, by omega⟩
  unfold retryWithBackoff
  rw [hn, List.range_eq_range']
  exact retryRounds_ends n 0 none (by omega)

/-- With none, it raises `None`. -/
theorem retry_of_nonpos (hpos : ¬ 1 ≤ maxRetries) :
    retryWithBackoff maxRetries baseDelay outcomes jitter = ⟨[], .error .typeError⟩ := by
  have hzero : maxRetries.toNat = 0 := by omega
  unfold retryWithBackoff
  rw [hzero]
  rfl

theorem verdict_again {k : Nat} {d : ℚ} (h : verdict maxRetries baseDelay outcomes jitter k = .again d) :
    (∃ e, outcomes k = .error e) ∧ (k : Int) < maxRetries - 1 ∧ k < 1024 := by
  unfold verdict at h
  split at h
  · cases h
  · rename_i e he
    split at h
    · rename_i hlt
      split at h
      · rename_i hdelay
        unfold delay? at hdelay
        split at hdelay
        · exact ⟨⟨e, he⟩, hlt, ‹_›⟩
        · cases hdelay
      · cases h
    · cases h

/-- **The loop stops** with a result, with the exception of its last round, or at a delay that is out of range. -/
theorem verdict_stop {k : Nat} {r : Except (Raised ε) α}
    (h : verdict maxRetries baseDelay outcomes jitter k = .stop r) :
    (∃ result, outcomes k = .ok result ∧ r = .ok result) ∨
    (∃ e, outcomes k = .error e ∧ maxRetries - 1 ≤ k ∧ r = .error (.exc e)) ∨
    ∃ e, outcomes k = .error e ∧ (k : Int) < maxRetries - 1 ∧ 1024 ≤ k ∧ r = .error .overflowError := by
  unfold verdict at h
  split at h
  · rename_i result hresult
    exact .inl ⟨result, hresult, (Verdict.stop.inj h).symm⟩
  · rename_i e he
    split at h
    · rename_i hlt
      split at h
      · cases h
      · rename_i hdelay
        unfold delay? at hdelay
        split at hdelay
        · cases hdelay
        · exact .inr (.inr ⟨e, he, hlt, not_lt.1 ‹_›, (Verdict.stop.inj h).symm⟩)
    · exact .inr (.inl ⟨e, he, not_lt.1 ‹_›, (Verdict.stop.inj h).symm⟩)

/-! ## The docstring -/

/-- What the docstring of `retry_with_backoff` promises: `func` is attempted, and `max_retries` times at most; its first
success is returned; and when every attempt fails, the exception of the last one is raised. -/
structure Meets (maxRetries : Int) (outcomes : Nat → Except ε α) (run : Run (Except (Raised ε) α) ℚ) : Prop where
  attempted : 1 ≤ run.calls ∧ (run.calls : Int) ≤ max 1 maxRetries
  success : ∀ (k : Nat) (result : α), (k : Int) < max 1 maxRetries → (∀ j < k, ∃ e, outcomes j = .error e) →
    outcomes k = .ok result → run.result = .ok result
  failure : (∀ k : Nat, (k : Int) < max 1 maxRetries → ∃ e, outcomes k = .error e) →
    ∃ e, outcomes (run.calls - 1) = .error e ∧ run.result = .error (.exc e)

/-- There is a round, and no delay out of range: of more than 1025 rounds one of the first 1025 succeeds. -/
def Tried (maxRetries : Int) (outcomes : Nat → Except ε α) : Prop :=
  1 ≤ maxRetries ∧ (maxRetries ≤ 1025 ∨ ∃ k result, k ≤ 1024 ∧ outcomes k = .ok result)

variable (baseDelay) (jitter) in
theorem ne_overflowError (h : Tried maxRetries outcomes) :
    (retryWithBackoff maxRetries baseDelay outcomes jitter).result ≠ .error .overflowError := by
  intro hoverflow
  have hends := retry_ends baseDelay outcomes jitter h.1
  have hstop := hends.stops
  rw [Nat.zero_add] at hstop
  rcases verdict_stop hstop with ⟨_, -, hr⟩ | ⟨_, -, -, hr⟩ | ⟨e, he, hlt, hge, -⟩
  · rw [hoverflow] at hr
    cases hr
  · rw [hoverflow] at hr
    cases hr
  · rcases h.2 with hmax | ⟨k, result, hk, hresult⟩
    · omega
    · -- a success among the first 1025 is where the loop would have stopped
      have hle := hends.length_le (j := k) (r := .ok result) (by simp only [Nat.zero_add, verdict, hresult])
      have hlength : (retryWithBackoff maxRetries baseDelay outcomes jitter).waits.length = k := by omega
      rw [hlength, hresult] at he
      cases he

theorem meets_of_tried (h : Tried maxRetries outcomes) :
    Meets maxRetries outcomes (retryWithBackoff maxRetries baseDelay outcomes jitter) := by
  have hrange := ne_overflowError baseDelay jitter h
  have hends := retry_ends baseDelay outcomes jitter h.1
  generalize retryWithBackoff maxRetries baseDelay outcomes jitter = run at hrange hends ⊢
  have hstop := hends.stops
  have hcalls := hends.calls
  rw [Nat.zero_add] at hstop
  have hlt : ((run.waits.length : Nat) : Int) < max 1 maxRetries := by
    cases hlength : run.waits.length with
    | zero => omega
    | succ n =>
      have hagain := hends.goes_on (j := n) (List.getElem?_eq_getElem (by omega))
      obtain ⟨-, hn, -⟩ := verdict_again hagain
      omega
  refine ⟨by omega, fun k result hk hbefore hresult => ?_, fun hall => ?_⟩
  · have hlength := hends.length_le (j := k) (r := .ok result) (by simp only [Nat.zero_add, verdict, hresult])
    rcases Nat.lt_or_eq_of_le hlength with hlt' | heq
    · obtain ⟨e, he⟩ := hbefore _ hlt'
      rcases verdict_stop hstop with ⟨_, ho, -⟩ | ⟨_, -, hge, -⟩ | ⟨_, -, -, -, hr⟩
      · rw [he] at ho
        cases ho
      · omega
      · exact absurd hr hrange
    · rw [heq] at hstop
      simp only [verdict, hresult] at hstop
      exact (Verdict.stop.inj hstop).symm
  · obtain ⟨e, he⟩ := hall _ hlt
    have hlast : run.calls - 1 = run.waits.length := by omega
    rw [hlast]
    rcases verdict_stop hstop with ⟨_, ho, -⟩ | ⟨e', he', -, hr⟩ | ⟨_, -, -, -, hr⟩
    · rw [he] at ho
      cases ho
    · exact ⟨e', he', hr⟩
    · exact absurd hr hrange

theorem tried_of_meets (h : Meets maxRetries outcomes (retryWithBackoff maxRetries baseDelay outcomes jitter)) :
    Tried maxRetries outcomes := by
  by_cases hpos : 1 ≤ maxRetries
  · refine ⟨hpos, ?_⟩
    by_contra hnot
    obtain ⟨hmax, hall⟩ := not_or.1 hnot
    have hfailed : ∀ k ≤ 1024, ∃ e, outcomes k = .error e := by
      intro k hk
      cases houtcome : outcomes k with
      | ok result => exact absurd ⟨k, result, hk, houtcome⟩ hall
      | error e => exact ⟨e, rfl⟩
    have hends := retry_ends baseDelay outcomes jitter hpos
    generalize retryWithBackoff maxRetries baseDelay outcomes jitter = run at h hends
    -- the first 1025 rounds fail, and the delay after the last of them is out of range
    have hoverflow : run.result = .error .overflowError := by
      have hlength : run.waits.length ≤ 1024 := by
        by_contra hgt
        have hagain := hends.goes_on (j := 1024) (List.getElem?_eq_getElem (by omega))
        obtain ⟨-, -, hlt⟩ := verdict_again hagain
        omega
      have hstop := hends.stops
      rw [Nat.zero_add] at hstop
      obtain ⟨e, he⟩ := hfailed _ hlength
      rcases verdict_stop hstop with ⟨_, ho, -⟩ | ⟨_, -, hge, -⟩ | ⟨_, -, -, -, hr⟩
      · rw [he] at ho
        cases ho
      · omega
      · exact hr
    by_cases hnone : ∀ k : Nat, (k : Int) < max 1 maxRetries → ∃ e, outcomes k = .error e
    · obtain ⟨e, -, hr⟩ := h.failure hnone
      rw [hoverflow] at hr
      cases hr
    · obtain ⟨k, hk⟩ := not_forall.1 hnone
      obtain ⟨hlt, hk⟩ := Classical.not_imp.1 hk
      classical
      have hex : ∃ k, ¬ ∃ e, outcomes k = .error e := ⟨k, hk⟩
      have hbefore : ∀ j < Nat.find hex, ∃ e, outcomes j = .error e := fun j hj => not_not.1 (Nat.find_min hex hj)
      have hle : Nat.find hex ≤ k := Nat.find_min' hex hk
      have hfound := Nat.find_spec hex
      cases houtcome : outcomes (Nat.find hex) with
      | error e => exact hfound ⟨e, houtcome⟩
      | ok result =>
        have hr := h.success _ result (by omega) hbefore houtcome
        rw [hoverflow] at hr
        cases hr
  · rw [retry_of_nonpos hpos] at h
    exact absurd h.attempted.1 (Nat.not_succ_le_zero 0)

/-- **The docstring is met exactly when there is a round and no delay out of range.** -/
theorem meets_iff : Meets maxRetries outcomes (retryWithBackoff maxRetries baseDelay outcomes jitter) ↔
    Tried maxRetries outcomes := ⟨tried_of_meets, meets_of_tried⟩

end Rounds

/-! ## `consume_payments` -/

/-- `str(e)` of what `retry_with_backoff` raises. -/
def Raised.text : Raised String → String
  | .exc text => text
  | .typeError => "exceptions must derive from BaseException"
  | .overflowError => "int too large to convert to float"

section Consumer

variable (env : Env)

/-- What `consume_payments` does with a payment once `retry_with_backoff` is over. -/
def handled (st : Store) (payment : Json.Members) (now : String) :
    Except (Raised String) Json.Members → Store × Stretch Await
  | .ok result => ({ st with processedPayments := st.processedPayments ++ [result] }, .await (.commit false))
  | .error raised => giveUp env st payment raised.text now

/-- The outcomes of `process_payment` on a payment, attempt after attempt. -/
def outcomesOf (payment : Json.Members) (attempts : Nat → Attempt) (k : Nat) : Except String Json.Members :=
  processPayment env payment (attempts k)

variable {env} {baseDelay : ℚ} {jitter : Nat → ℚ} {payment : Json.Members} {attempts : Nat → Attempt}

/-- A round of the loop is a round of the consumer. -/
theorem tryPayment_stop {k : Nat} {r : Except (Raised String) Json.Members} (hk : (k : Int) < env.maxRetries)
    (h : verdict env.maxRetries baseDelay (outcomesOf env payment attempts) jitter k = .stop r) (st : Store) :
    tryPayment env st payment k (attempts k) = handled env st payment (attempts k).now r := by
  unfold tryPayment
  rw [if_pos hk]
  rcases verdict_stop h with ⟨result, ho, rfl⟩ | ⟨text, he, hge, rfl⟩ | ⟨text, he, hlt, hge, rfl⟩
  · unfold outcomesOf at ho
    rw [ho]
    rfl
  · unfold outcomesOf at he
    rw [he]
    dsimp only
    rw [if_neg (by omega)]
    rfl
  · unfold outcomesOf at he
    rw [he]
    dsimp only
    rw [if_pos hlt, if_neg (by omega)]
    rfl

theorem tryPayment_again {k : Nat} {d : ℚ}
    (h : verdict env.maxRetries baseDelay (outcomesOf env payment attempts) jitter k = .again d) (st : Store) :
    tryPayment env st payment k (attempts k) = (st, .await (.retry payment (k + 1))) := by
  obtain ⟨⟨text, he⟩, hlt, hrange⟩ := verdict_again h
  unfold outcomesOf at he
  unfold tryPayment
  rw [if_pos (by omega), he]
  dsimp only
  rw [if_pos hlt, if_pos hrange]

/-- The events of the attempts from number `k` on, `n` of them. -/
def attemptEvents (attempts : Nat → Attempt) (k n : Nat) : List (ConsumerLoop.Event ByteArray Attempt Return) :=
  (List.range' k n).map (fun j => .advance (.attempt (attempts j)))

theorem rounds_handled {k : Nat} {run : Run (Except (Raised String) Json.Members) ℚ}
    (h : Tries.Ends (verdict env.maxRetries baseDelay (outcomesOf env payment attempts) jitter) k run)
    (hk : (k : Int) < env.maxRetries) (st : Store) :
    (loop env).lts.run (ConsumerLoop.after (tryPayment env st payment k (attempts k)))
        (attemptEvents attempts (k + 1) run.waits.length) =
      some (ConsumerLoop.after (handled env st payment (attempts (k + run.waits.length)).now run.result)) := by
  induction h with
  | stop hstop =>
    rw [tryPayment_stop hk hstop st]
    rfl
  | @again k d run hagain hrun ih =>
    obtain ⟨-, hlt, -⟩ := verdict_again hagain
    rw [tryPayment_again hagain st, Run.waits_after, List.length_cons, attemptEvents, List.range'_succ, List.map_cons]
    refine (loop env).lts.run_cons.2 ⟨_, rfl, ?_⟩
    rw [Nat.add_comm run.waits.length 1, ← Nat.add_assoc]
    exact ih (by omega)

/-- **The consumer runs `retry_with_backoff`**: from the message on, the attempts of one payment leave the loop where
the function's result or exception does. -/
theorem payment_handled (env : Env) (baseDelay : ℚ) (jitter : Nat → ℚ) (st : Store) (payment : Json.Members)
    (attempts : Nat → Attempt) :
    let run := retryWithBackoff env.maxRetries baseDelay (outcomesOf env payment attempts) jitter
    (loop env).lts.run (ConsumerLoop.after (receive env st (.obj payment) (attempts 0)))
        (attemptEvents attempts 1 run.waits.length) =
      some (ConsumerLoop.after (handled env { st with received := st.received ++ [payment] } payment
        (attempts run.waits.length).now run.result)) := by
  intro run
  by_cases hpos : 1 ≤ env.maxRetries
  · have hends : Tries.Ends _ 0 run := retry_ends baseDelay _ jitter hpos
    have hrun := rounds_handled hends (by omega) { st with received := st.received ++ [payment] }
    rw [Nat.zero_add, Nat.zero_add] at hrun
    exact hrun
  · have hnone : run = ⟨[], .error .typeError⟩ := retry_of_nonpos hpos
    rw [hnone]
    change some (ConsumerLoop.after (tryPayment env _ payment 0 (attempts 0))) = _
    unfold tryPayment
    rw [if_neg (by omega)]
    rfl

/-! ## The dead letters -/

variable (env) in
/-- The payment that a step calls `process_payment` on, and what the attempt finds. -/
def attemptOf (s : ConsumerLoop.State Store Await) :
    ConsumerLoop.Event ByteArray Attempt Return → Option (Json.Members × Attempt)
  | .receive rec a =>
    match Json.ofBytes env.loads rec with
    | some (.obj payment) => if 0 < env.maxRetries then some (payment, a) else none
    | _ => none
  | .advance (.attempt a) =>
    match s.position with
    | .awaiting (.retry payment attempt) => if attempt < env.maxRetries then some (payment, a) else none
    | _ => none
  | _ => none

variable (env) in
/-- A payment that goes to the DLQ has just been tried, and goes with the error of that attempt. -/
def DlqAfterTry (s : ConsumerLoop.State Store Await) (e : ConsumerLoop.Event ByteArray Attempt Return)
    (s' : ConsumerLoop.State Store Await) : Prop :=
  ∀ payment message, s'.position = .awaiting (.sendToDlq payment message false) →
    ∃ a text, attemptOf env s e = some (payment, a) ∧ processPayment env payment a = .error text ∧
      message = dlqMessage payment text env.maxRetries a.now

variable (env) in
/-- There are rounds, and the step is not a failure after which a delay is out of range: the 1025th of one payment,
when `MAX_RETRIES` is more than that. -/
def InRange (s : ConsumerLoop.State Store Await) (e : ConsumerLoop.Event ByteArray Attempt Return) : Prop :=
  1 ≤ env.maxRetries ∧ (env.maxRetries ≤ 1025 ∨
    ∀ payment attempt a text, s.position = .awaiting (.retry payment attempt) →
    e = .advance (.attempt a) → processPayment env payment a = .error text → attempt < 1024)

/-- **A round that gives a payment up has tried it.** -/
theorem tryPayment_sendToDlq {st : Store} {payment' message : Json.Members} {attempt : Nat} {a : Attempt}
    (h : (tryPayment env st payment attempt a).2 = .await (.sendToDlq payment' message false))
    (hlt : (attempt : Int) < env.maxRetries)
    (hrange : env.maxRetries ≤ 1025 ∨ ∀ text, processPayment env payment a = .error text → attempt < 1024) :
    payment' = payment ∧ ∃ text, processPayment env payment a = .error text ∧
      message = dlqMessage payment text env.maxRetries a.now := by
  unfold tryPayment at h
  rw [if_pos hlt] at h
  cases hprocess : processPayment env payment a with
  | ok result =>
    rw [hprocess] at h
    cases h
  | error text =>
    rw [hprocess] at h
    dsimp only at h
    split at h
    · rename_i hlast
      rw [if_pos] at h
      · cases h
      · rcases hrange with hmax | hrange
        · omega
        · exact hrange text hprocess
    · cases h
      exact ⟨rfl, text, rfl, rfl⟩

/-- A payment that waits for a further round has one left. -/
def RoundsLeft (env : Env) (s : ConsumerLoop.State Store Await) : Prop :=
  ∀ payment attempt, s.position = .awaiting (.retry payment attempt) → (attempt : Int) < env.maxRetries

theorem roundsLeft_tryPayment (st : Store) (payment : Json.Members) (attempt : Nat) (a : Attempt) :
    RoundsLeft env (ConsumerLoop.after (tryPayment env st payment attempt a)) := by
  intro payment' attempt' hposition
  rcases tryPayment_cases env st payment attempt a with ⟨result, -, he⟩ | ⟨hlt, he⟩ | ⟨text, he⟩ <;>
    rw [he] at hposition <;> cases hposition
  push_cast
  omega

/-- **One step**: it leaves a round to every payment that waits for one, and gives a payment up only after a try. -/
theorem dlqAfterTry_step {s s' : ConsumerLoop.State Store Await}
    {e : ConsumerLoop.Event ByteArray Attempt Return} (hrounds : RoundsLeft env s)
    (hstep : (loop env).lts.step s e = some s') (hrange : InRange env s e) :
    RoundsLeft env s' ∧ DlqAfterTry env s e s' := by
  cases ConsumerLoop.step_sound hstep with
  | undecoded r hposition hdecode =>
    exact ⟨(fun _ _ h => nomatch h), (fun _ _ h => nomatch h)⟩
  | @receive rec v a hposition hdecode =>
    cases v with
    | obj payment =>
      refine ⟨roundsLeft_tryPayment _ payment 0 a, fun payment' message hat => ?_⟩
      obtain ⟨rfl, text, htext, hmessage⟩ := tryPayment_sendToDlq (ConsumerLoop.position_awaiting.1 hat)
        (by have := hrange.1; omega) (.inr fun _ _ => by decide)
      refine ⟨a, text, ?_, htext, hmessage⟩
      change Json.ofBytes env.loads rec = _ at hdecode
      simp only [attemptOf, hdecode]
      rw [if_pos (by have := hrange.1; omega)]
    | _ => exact ⟨(fun _ _ h => nomatch h), (fun _ _ h => nomatch h)⟩
  | @advance k i p hposition hadvance =>
    change advance env s.store k i = some p at hadvance
    cases k with
    | retry payment attempt =>
      cases i with
      | attempt a =>
        cases hadvance
        have hlt := hrounds payment attempt hposition
        refine ⟨roundsLeft_tryPayment _ payment attempt a, fun payment' message hat => ?_⟩
        have hnow := hrange.2.imp_right fun h text htext => h payment attempt a text hposition rfl htext
        obtain ⟨rfl, text, htext, hmessage⟩ := tryPayment_sendToDlq (ConsumerLoop.position_awaiting.1 hat)
          hlt hnow
        refine ⟨a, text, ?_, htext, hmessage⟩
        simp only [attemptOf, hposition]
        rw [if_pos hlt]
      | _ => cases hadvance
    | sendToDlq payment message landed =>
      cases i with
      | land =>
        obtain ⟨key, -, rfl⟩ := Option.map_eq_some_iff.1 hadvance
        exact ⟨(fun _ _ h => nomatch h), (fun _ _ h => nomatch h)⟩
      | sent =>
        cases hadvance
        exact ⟨(fun _ _ h => nomatch h), (fun _ _ h => nomatch h)⟩
      | _ => cases hadvance
    | commit stored =>
      cases i with
      | committed =>
        cases stored with
        | false => cases hadvance
        | true =>
          cases hadvance
          exact ⟨(fun _ _ h => nomatch h), (fun _ _ h => nomatch h)⟩
      | store =>
        cases hadvance
        exact ⟨(fun _ _ h => nomatch h), (fun _ _ h => nomatch h)⟩
      | commitFailed =>
        cases hadvance
        exact ⟨(fun _ _ h => nomatch h), (fun _ _ h => nomatch h)⟩
      | _ => cases hadvance
  | cancel => exact ⟨(fun _ _ h => nomatch h), (fun _ _ h => nomatch h)⟩

variable (env) in
/-- **`retry_with_backoff` meets its docstring exactly when it has a round and no delay out of range**; and in a run of
`consume_payments` whose steps are so, a payment goes to the DLQ right after an attempt, with the error of that
attempt. -/
theorem meets_docstring_iff {ε α : Type} (baseDelay : ℚ) (outcomes : Nat → Except ε α) (jitter : Nat → ℚ)
    (es : List (ConsumerLoop.Event ByteArray Attempt Return)) :
    (Meets env.maxRetries outcomes (retryWithBackoff env.maxRetries baseDelay outcomes jitter) ↔
      Tried env.maxRetries outcomes) ∧
    ((loop env).lts.Along (fun s e _ => InRange env s e) (loop env).lts.init es →
      (loop env).lts.Along (DlqAfterTry env) (loop env).lts.init es) := by
  refine ⟨meets_iff, (loop env).lts.along_of_inv (I := RoundsLeft env) (fun s e s' => dlqAfterTry_step) ?_⟩
  exact fun _ _ h => nomatch h

end Consumer

/-- `MAX_RETRIES=0`. -/
def noRetries : Env := { maxRetries := 0, loads := fun _ => none, format := fun _ => "" }

def mealPayment : Json.Members :=
  [("payment_id", .str "pay-001"), ("user_id", .str "user-001"), ("amount", .num 12), ("currency", .str "KRW")]

/-- Without a round, a payment that `process_payment` would complete goes to the DLQ with the error of no attempt. -/
theorem noRetries_untried :
    ¬ Meets noRetries.maxRetries (outcomesOf noRetries mealPayment fun _ => ⟨"2024-01-01T00:00:00", none⟩)
      (retryWithBackoff noRetries.maxRetries 1 (outcomesOf noRetries mealPayment fun _ => ⟨"2024-01-01T00:00:00", none⟩)
        fun _ => 0) ∧
    (∃ result, processPayment noRetries mealPayment ⟨"2024-01-01T00:00:00", none⟩ = .ok result) ∧
    (receive noRetries {} (.obj mealPayment) ⟨"2024-01-01T00:00:00", none⟩).2 =
      .await (.sendToDlq mealPayment (dlqMessage mealPayment "exceptions must derive from BaseException" 0
        "2024-01-01T00:00:00") false) := by
  refine ⟨fun h => absurd h.attempted.1 (by decide), ⟨_, rfl⟩, rfl⟩

end Payments
end KafkaGuide
