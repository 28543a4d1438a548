import Mathlib.Algebra.Order.Ring.Rat
import Mathlib.Algebra.Order.Floor.Defs
import Mathlib.Data.Rat.Floor
import Mathlib.Order.Monotone.Basic
import Mathlib.Tactic.FieldSimp
import Mathlib.Tactic.Linarith
import Tapes.Machine.Run
import Tapes.Machine.Table

namespace Tapes.Outbox.Limiter

open Tapes.Machine

/-! The token bucket of the event routes, one for each connection.

The clock's readings are milliseconds. The platform's numbers are doubles: what `+`, `-`, `*` and
`/` give is the exact result, rounded by `round`.
-/

/-- `rateBurst` and `rateRefillPerSecond`. -/
structure Limits where
  burst : ℚ
  refillPerSecond : ℚ
  burstPositive : 1 ≤ burst
  positive : 0 < refillPerSecond

/-- What the code relies on: rounding keeps the order, and leaves a double as it is. -/
structure RoundsDoubles (limits : Limits) (round : ℚ → ℚ) : Prop where
  mono : Monotone round
  zero : round 0 = 0
  burst : round limits.burst = limits.burst

structure Bucket where
  tokens : ℚ
  updated : ℚ
deriving DecidableEq

section

variable {κ : Type} (limits : Limits) (round : ℚ → ℚ)

/-- The bucket's tokens at a reading, at most `burst`. -/
def refilled (bucket : Bucket) (time : ℚ) : ℚ :=
  min limits.burst
    (round (bucket.tokens + round (round (round (time - bucket.updated) / 1000) * limits.refillPerSecond)))

def bucketAt (buckets : Table κ Bucket) (key : κ) (time : ℚ) : Bucket :=
  (buckets key).getD ⟨limits.burst, time⟩

variable [DecidableEq κ]

/-- `take`: whether the connection may go on, and the buckets afterwards. -/
def take (buckets : Table κ Bucket) (key : κ) (time : ℚ) : Bool × Table κ Bucket :=
  let tokens := refilled limits round (bucketAt limits buckets key time) time
  if tokens < 1 then (false, buckets.put key ⟨tokens, time⟩)
  else (true, buckets.put key ⟨round (tokens - 1), time⟩)

/-! ## Requests -/

/-- One request to an event route: the connection it came over, what the checks before the limiter
say of it, and the clock's reading if it gets there. -/
structure Request (κ : Type) where
  socket : κ
  isPreflight : Bool
  authorized : Bool
  allowed : Bool
  now : ℚ

inductive Answer where
  | noContent
  | unauthorized
  | methodNotAllowed
  | tooManyRequests (retryAfter : Int)
  | served
deriving DecidableEq

/-- A request that an earlier check has answered takes no token. -/
def Request.reachesLimiter (request : Request κ) : Bool :=
  !request.isPreflight && request.authorized && request.allowed

def handleEventRequest (buckets : Table κ Bucket) (request : Request κ) : Answer × Table κ Bucket :=
  if request.isPreflight then (.noContent, buckets)
  else if !request.authorized then (.unauthorized, buckets)
  else if !request.allowed then (.methodNotAllowed, buckets)
  else
    match take limits round buckets request.socket request.now with
    | (true, buckets) => (.served, buckets)
    | (false, buckets) => (.tooManyRequests ⌈round (1 / limits.refillPerSecond)⌉, buckets)

/-! ## Runs -/

/-- What a run is measured by, for one connection: the requests granted, how far its readings went
forward, and the tokens that exact arithmetic would have left. -/
structure Ledger where
  granted : Nat
  forward : ℚ
  exact : ℚ

structure State (κ : Type) where
  buckets : Table κ Bucket
  ledger : κ → Ledger

def start : State κ := ⟨.empty, fun _ => ⟨0, 0, limits.burst⟩⟩

/-- How far the clock went since the connection's last reading. -/
def elapsed (state : State κ) (request : Request κ) : ℚ :=
  request.now - (bucketAt limits state.buckets request.socket request.now).updated

def exactTokens (state : State κ) (request : Request κ) : ℚ :=
  min limits.burst ((state.ledger request.socket).exact +
    elapsed limits state request / 1000 * limits.refillPerSecond)

def Ledger.note (ledger : Ledger) (answer : Answer) (elapsed exact : ℚ) : Ledger where
  granted := ledger.granted + if answer = .served then 1 else 0
  forward := ledger.forward + max 0 elapsed
  exact := exact - if answer = .served then 1 else 0

def step (state : State κ) (request : Request κ) : Option (State κ) :=
  let (answer, buckets) := handleEventRequest limits round state.buckets request
  some ⟨buckets,
    if request.reachesLimiter then
      Function.update state.ledger request.socket
        ((state.ledger request.socket).note answer (elapsed limits state request)
          (exactTokens limits state request))
    else state.ledger⟩

/-- The clock has not gone back, and rounding does not decide the answer. -/
structure Steady (state : State κ) (request : Request κ) : Prop where
  notBack : 0 ≤ elapsed limits state request
  rounded : 1 ≤ refilled limits round
      (bucketAt limits state.buckets request.socket request.now) request.now ↔
    1 ≤ exactTokens limits state request

/-- The guard of a run: every request that reaches the limiter finds it steady. -/
def SteadyIfLimited (state : State κ) (request : Request κ) : Prop :=
  request.reachesLimiter = true → Steady limits round state request

/-- Of one connection, over a stretch of a run: the tokens keep their bounds, no more is granted
than the bucket and the clock allow, and something is granted in the time one token takes. -/
structure Fair (socket : κ) (earlier later : State κ) : Prop where
  bounds : ∀ bucket ∈ later.buckets socket, 0 ≤ bucket.tokens ∧ bucket.tokens ≤ limits.burst
  granted : ((later.ledger socket).granted : ℚ) - (earlier.ledger socket).granted ≤
    limits.burst + limits.refillPerSecond *
      (((later.ledger socket).forward - (earlier.ledger socket).forward) / 1000)
  again : 1 / limits.refillPerSecond ≤
      ((later.ledger socket).forward - (earlier.ledger socket).forward) / 1000 →
    (earlier.ledger socket).granted < (later.ledger socket).granted

/-! ## One request -/

variable {limits round} {state next : State κ} {request : Request κ}

theorem handleEventRequest_unreached (buckets : Table κ Bucket)
    (answered : request.reachesLimiter = false) :
    (handleEventRequest limits round buckets request).2 = buckets := by
  unfold handleEventRequest
  cases preflight : request.isPreflight with
  | true => rfl
  | false =>
      cases authorized : request.authorized with
      | false => rfl
      | true =>
          have notAllowed : request.allowed = false := by
            simpa [Request.reachesLimiter, preflight, authorized] using answered
          simp [notAllowed]

theorem handleEventRequest_reached (limits : Limits) (round : ℚ → ℚ) (buckets : Table κ Bucket)
    (reaches : request.reachesLimiter = true) :
    ((handleEventRequest limits round buckets request).1 = .served ↔
      (take limits round buckets request.socket request.now).1 = true) ∧
    (handleEventRequest limits round buckets request).2 =
      (take limits round buckets request.socket request.now).2 := by
  simp only [Request.reachesLimiter, Bool.and_eq_true, Bool.not_eq_true'] at reaches
  obtain ⟨⟨preflight, authorized⟩, allowed⟩ := reaches
  unfold handleEventRequest
  rw [preflight, authorized, allowed]
  cases (take limits round buckets request.socket request.now) with
  | mk granted after => cases granted <;> simp

/-- The rounded tokens that the limiter decides by. -/
def tokensAt (limits : Limits) (round : ℚ → ℚ) (state : State κ) (request : Request κ) : ℚ :=
  refilled limits round (bucketAt limits state.buckets request.socket request.now) request.now

/-- A step says all a request can do: nothing, a refusal, or a grant. -/
theorem step_cases (taken : step limits round state request = some next) :
    request.reachesLimiter = false ∧ next = state ∨
    request.reachesLimiter = true ∧ tokensAt limits round state request < 1 ∧
      next.buckets = state.buckets.put request.socket ⟨tokensAt limits round state request, request.now⟩ ∧
      next.ledger = Function.update state.ledger request.socket
        ⟨(state.ledger request.socket).granted,
          (state.ledger request.socket).forward + max 0 (elapsed limits state request),
          exactTokens limits state request⟩ ∨
    request.reachesLimiter = true ∧ 1 ≤ tokensAt limits round state request ∧
      next.buckets = state.buckets.put request.socket
        ⟨round (tokensAt limits round state request - 1), request.now⟩ ∧
      next.ledger = Function.update state.ledger request.socket
        ⟨(state.ledger request.socket).granted + 1,
          (state.ledger request.socket).forward + max 0 (elapsed limits state request),
          exactTokens limits state request - 1⟩ := by
  simp only [step, Option.some.injEq] at taken
  cases reaches : request.reachesLimiter with
  | false =>
      refine .inl ⟨rfl, ?_⟩
      rw [← taken, handleEventRequest_unreached _ reaches, reaches]
      rfl
  | true =>
      obtain ⟨answer, after⟩ := handleEventRequest_reached limits round state.buckets reaches
      rw [reaches, if_pos rfl] at taken
      right
      by_cases few : tokensAt limits round state request < 1
      · have refused : take limits round state.buckets request.socket request.now =
            (false, state.buckets.put request.socket
              ⟨tokensAt limits round state request, request.now⟩) := if_pos few
        rw [refused] at answer after
        have other : ¬ (handleEventRequest limits round state.buckets request).1 = .served :=
          fun served => Bool.false_ne_true (answer.mp served)
        refine .inl ⟨rfl, few, ?_, ?_⟩
        · rw [← taken, after]
        · rw [← taken]
          simp only [Ledger.note, if_neg other, Nat.add_zero, sub_zero]
      · have granted : take limits round state.buckets request.socket request.now =
            (true, state.buckets.put request.socket
              ⟨round (tokensAt limits round state request - 1), request.now⟩) := if_neg few
        rw [granted] at answer after
        have served : (handleEventRequest limits round state.buckets request).1 = .served :=
          answer.mpr rfl
        refine .inr ⟨rfl, not_lt.mp few, ?_, ?_⟩
        · rw [← taken, after]
        · rw [← taken]
          simp only [Ledger.note, if_pos served]

/-! ## The invariant -/

/-- The tokens of every connection keep their bounds, rounded and exact. -/
structure Within (limits : Limits) (state : State κ) : Prop where
  tokens : ∀ socket bucket, state.buckets socket = some bucket →
    0 ≤ bucket.tokens ∧ bucket.tokens ≤ limits.burst
  exactWithin : ∀ socket, 0 ≤ (state.ledger socket).exact ∧ (state.ledger socket).exact ≤ limits.burst

theorem burst_nonneg (limits : Limits) : 0 ≤ limits.burst := zero_le_one.trans limits.burstPositive

omit [DecidableEq κ] in
theorem within_start : Within limits (start limits : State κ) where
  tokens := by
    intro socket bucket found
    cases found
  exactWithin := fun _ => ⟨burst_nonneg limits, le_refl _⟩

omit [DecidableEq κ] in
theorem bucketAt_nonneg (within : Within limits state) :
    0 ≤ (bucketAt limits state.buckets request.socket request.now).tokens := by
  unfold bucketAt
  cases found : state.buckets request.socket with
  | none => exact burst_nonneg limits
  | some bucket => exact (within.tokens _ _ found).1

omit [DecidableEq κ] in
theorem tokensAt_bounds (rounds : RoundsDoubles limits round) (within : Within limits state)
    (notBack : 0 ≤ elapsed limits state request) :
    0 ≤ tokensAt limits round state request ∧ tokensAt limits round state request ≤ limits.burst := by
  have nonneg : ∀ {value : ℚ}, 0 ≤ value → 0 ≤ round value := by
    intro value positive
    rw [← rounds.zero]
    exact rounds.mono positive
  refine ⟨le_min (burst_nonneg limits) ?_, min_le_left _ _⟩
  apply nonneg
  apply add_nonneg (bucketAt_nonneg within)
  apply nonneg
  apply mul_nonneg _ limits.positive.le
  apply nonneg
  exact div_nonneg (nonneg notBack) (by norm_num)

omit [DecidableEq κ] in
theorem exactTokens_bounds (within : Within limits state)
    (notBack : 0 ≤ elapsed limits state request) :
    0 ≤ exactTokens limits state request ∧ exactTokens limits state request ≤ limits.burst := by
  refine ⟨le_min (burst_nonneg limits) ?_, min_le_left _ _⟩
  apply add_nonneg (within.exactWithin request.socket).1
  exact mul_nonneg (div_nonneg notBack (by norm_num)) limits.positive.le

theorem within_step (rounds : RoundsDoubles limits round) (within : Within limits state)
    (steady : SteadyIfLimited limits round state request)
    (taken : step limits round state request = some next) : Within limits next := by
  rcases step_cases taken with ⟨_, same⟩ | ⟨reaches, few, buckets, ledger⟩ |
    ⟨reaches, enough, buckets, ledger⟩
  · exact same ▸ within
  · have notBack := (steady reaches).notBack
    constructor
    · intro socket bucket found
      rw [buckets] at found
      rcases Table.put_cases found with ⟨_, same⟩ | ⟨_, held⟩
      · exact same ▸ tokensAt_bounds rounds within notBack
      · exact within.tokens socket bucket held
    · intro socket
      rw [ledger]
      by_cases same : socket = request.socket
      · rw [same, Function.update_self]
        exact exactTokens_bounds within notBack
      · rw [Function.update_of_ne same]
        exact within.exactWithin socket
  · obtain ⟨notBack, rounded⟩ := steady reaches
    have enoughExact := rounded.mp enough
    have bounds := tokensAt_bounds rounds within notBack
    have exactBounds := exactTokens_bounds within notBack
    constructor
    · intro socket bucket found
      rw [buckets] at found
      rcases Table.put_cases found with ⟨_, same⟩ | ⟨_, held⟩
      · rw [← same, ← rounds.burst]
        have least : round 0 ≤ round (tokensAt limits round state request - 1) :=
          rounds.mono (by linarith)
        rw [rounds.zero] at least
        exact ⟨least, rounds.mono (by linarith [bounds.2])⟩
      · exact within.tokens socket bucket held
    · intro socket
      rw [ledger]
      by_cases same : socket = request.socket
      · rw [same, Function.update_self]
        exact ⟨by linarith, by linarith [exactBounds.2]⟩
      · rw [Function.update_of_ne same]
        exact within.exactWithin socket

/-! ## Stretches of a run -/

/-- What a stretch of a run keeps of one connection's ledger, by exact arithmetic. -/
structure Accounts (limits : Limits) (earlier later : Ledger) : Prop where
  more : earlier.granted ≤ later.granted
  paid : later.exact + (later.granted - earlier.granted) ≤
    earlier.exact + limits.refillPerSecond * ((later.forward - earlier.forward) / 1000)
  waiting : later.granted = earlier.granted →
    later.exact = earlier.exact + limits.refillPerSecond * ((later.forward - earlier.forward) / 1000) ∧
      (later.forward = earlier.forward ∨ later.exact < 1)

theorem accounts_refl (ledger : Ledger) : Accounts limits ledger ledger where
  more := Nat.le_refl _
  paid := by simp
  waiting := fun _ => ⟨by simp, .inl rfl⟩

theorem accounts_step {socket : κ} {earlier : Ledger}
    (accounts : Accounts limits earlier (state.ledger socket))
    (steady : SteadyIfLimited limits round state request)
    (taken : step limits round state request = some next) :
    Accounts limits earlier (next.ledger socket) := by
  have clamped : exactTokens limits state request ≤ (state.ledger request.socket).exact +
      elapsed limits state request / 1000 * limits.refillPerSecond := min_le_right _ _
  rcases step_cases taken with ⟨_, same⟩ | ⟨reaches, few, _, ledger⟩ | ⟨reaches, enough, _, ledger⟩
  · exact same ▸ accounts
  · rw [ledger]
    by_cases own : socket = request.socket
    · obtain ⟨notBack, rounded⟩ := steady reaches
      have fewExact : exactTokens limits state request < 1 :=
        not_le.mp fun enough => not_lt.mpr (rounded.mpr enough) few
      -- with less than one token the bucket is not full
      have unclamped : exactTokens limits state request = (state.ledger request.socket).exact +
          elapsed limits state request / 1000 * limits.refillPerSecond := by
        refine min_eq_right (le_of_not_ge fun full => ?_)
        have whole : exactTokens limits state request = limits.burst := min_eq_left full
        linarith [limits.burstPositive]
      rw [own] at accounts
      rw [own, Function.update_self, max_eq_right notBack]
      refine ⟨accounts.more, ?_, ?_⟩
      · have paid := accounts.paid
        dsimp only
        linarith
      · intro none
        have waited := (accounts.waiting none).1
        refine ⟨?_, .inr fewExact⟩
        dsimp only
        linarith
    · rwa [Function.update_of_ne own]
  · rw [ledger]
    by_cases own : socket = request.socket
    · rw [own] at accounts
      rw [own, Function.update_self, max_eq_right (steady reaches).notBack]
      refine ⟨accounts.more.trans (Nat.le_succ _), ?_, ?_⟩
      · have paid := accounts.paid
        push_cast
        linarith
      · intro none
        have more := accounts.more
        dsimp only at none
        omega
    · rwa [Function.update_of_ne own]

/-! ## The property -/

theorem limiter_is_fair (limits : Limits) (round : ℚ → ℚ) (rounds : RoundsDoubles limits round)
    (socket : κ) (earlier later : State κ)
    (before : Reaches (step limits round) (SteadyIfLimited limits round) (start limits) earlier)
    (stretch : Reaches (step limits round) (SteadyIfLimited limits round) earlier later) :
    Fair limits socket earlier later := by
  have within : ∀ {state : State κ},
      Reaches (step limits round) (SteadyIfLimited limits round) (start limits) state →
      Within limits state := by
    intro state reached
    exact reached.invariant (Within limits) within_start
      fun _ within steady taken => within_step rounds within steady taken
  have accounts : Accounts limits (earlier.ledger socket) (later.ledger socket) :=
    stretch.invariant (fun state => Accounts limits (earlier.ledger socket) (state.ledger socket))
      (accounts_refl _) fun _ accounts steady taken => accounts_step accounts steady taken
  obtain ⟨full, -⟩ := ((within before).exactWithin socket).symm
  have left := ((within (before.trans stretch)).exactWithin socket).1
  refine ⟨(within (before.trans stretch)).tokens socket, by linarith [accounts.paid], ?_⟩
  intro waited
  apply lt_of_le_of_ne accounts.more
  intro none
  obtain ⟨grown, idle⟩ := accounts.waiting none.symm
  have token : 1 ≤ limits.refillPerSecond *
      (((later.ledger socket).forward - (earlier.ledger socket).forward) / 1000) := by
    rw [div_le_iff₀ limits.positive] at waited
    linarith
  rcases idle with same | few
  · rw [same] at token
    norm_num at token
  · linarith [((within before).exactWithin socket).1]

end

/-! Samples: a burst of one, spent and back after a second; and the defaults, with a clock that is
set back by a quarter of an hour. -/

instance (limits : Limits) (round : ℚ → ℚ) (state : State Unit) (request : Request Unit) :
    Decidable (SteadyIfLimited limits round state request) :=
  decidable_of_iff (request.reachesLimiter = true → 0 ≤ elapsed limits state request ∧
    (1 ≤ refilled limits round (bucketAt limits state.buckets request.socket request.now) request.now ↔
      1 ≤ exactTokens limits state request))
    ⟨fun holds reaches => ⟨(holds reaches).1, (holds reaches).2⟩,
      fun steady reaches => ⟨(steady reaches).notBack, (steady reaches).rounded⟩⟩

def requestAt (now : ℚ) : Request Unit := ⟨(), false, true, true, now⟩

def burstOfOne : Limits := ⟨1, 1, le_refl _, by norm_num⟩

theorem one_a_second_is_fair : ∃ state : State Unit,
    (state.ledger ()).granted = 2 ∧ Fair burstOfOne () (start burstOfOne) state := by
  have rounds : RoundsDoubles burstOfOne id := ⟨monotone_id, rfl, rfl⟩
  have granted : (run (guarded (SteadyIfLimited burstOfOne id) (step burstOfOne id))
      (start burstOfOne) [requestAt 0, requestAt 500, requestAt 1000]).map
        (fun state => (state.ledger ()).granted) = some 2 := by
    decide +kernel
  obtain ⟨state, ran, two⟩ := Option.map_eq_some_iff.mp granted
  exact ⟨state, two, limiter_is_fair burstOfOne id rounds () (start burstOfOne) state .refl
    (Reaches.of_guarded_run ran)⟩

/-- `DEFAULT_RATE_BURST` and `DEFAULT_RATE_REFILL_PER_SECOND`. -/
def defaultLimits : Limits := ⟨30, 1, by norm_num, by norm_num⟩

/-- A quarter of an hour back leaves the bucket 871 tokens short: the connection is refused a second
later, and would be for 14 minutes. -/
theorem clock_set_back_locks_out : ∃ state : State Unit,
    run (step defaultLimits id) (start defaultLimits)
      [requestAt 900000, requestAt 0, requestAt 1000] = some state ∧
    state.buckets () = some ⟨-870, 1000⟩ ∧ ¬ Fair defaultLimits () (start defaultLimits) state := by
  have tokens : (run (step defaultLimits id) (start defaultLimits)
      [requestAt 900000, requestAt 0, requestAt 1000]).map (fun state => state.buckets ()) =
        some (some ⟨-870, 1000⟩) := by
    decide +kernel
  obtain ⟨state, ran, short⟩ := Option.map_eq_some_iff.mp tokens
  refine ⟨state, ran, short, ?_⟩
  intro fair
  have least : (0 : ℚ) ≤ -870 := (fair.bounds _ short).1
  norm_num at least

end Tapes.Outbox.Limiter
