import Mathlib.Logic.Function.Basic
import Mathlib.Data.Option.Basic
import Mathlib.Data.List.Basic
import Mathlib.Algebra.Order.Group.Nat

/-! # The login limiter (`rate-limit.service.ts`, `AuthService.login`)

Every login from an address is counted before its password is checked, and one that succeeds gives its
attempt back. Either is one script that runs in Redis, on the key of the window in which it was sent; the
check between them takes as long as it takes. -/

namespace RateLimit

/-! ## Redis -/

/-- A key that counts. Times are in milliseconds. -/
structure Counter where
  value : Int
  expiresAt : Nat
  deriving DecidableEq, Repr

structure Redis where
  now : Nat
  /-- the keys of one address, by window -/
  keys : Nat → Option Counter

/-- `windowKey`, of which only the window is not fixed. -/
def windowKey (now windowSec : Nat) : Nat := now / 1000 / windowSec

namespace Redis

variable (r : Redis)

/-- A key that has expired is not there. -/
def get (k : Nat) : Option Counter := (r.keys k).filter fun c => r.now < c.expiresAt

def set (k : Nat) (c : Counter) : Redis := { r with keys := Function.update r.keys k (some c) }

/-- `INCR`, and `EXPIRE` where it gives 1. -/
def incr (k windowSec : Nat) : Counter :=
  match r.get k with
  | some c =>
      ⟨c.value + 1, if c.value + 1 = 1 then r.now + windowSec * 1000 else c.expiresAt⟩
  | none => ⟨1, r.now + windowSec * 1000⟩

/-- `RATE_LIMIT_LUA`. `TTL` is in seconds, rounded. -/
def rateLimitLua (k windowSec : Nat) : (Int × Nat) × Redis :=
  (((r.incr k windowSec).value, ((r.incr k windowSec).expiresAt - r.now + 500) / 1000),
    r.set k (r.incr k windowSec))

/-- `REFUND_LUA`. It creates no key. -/
def refundLua (k : Nat) : Int × Redis :=
  match r.get k with
  | some c => (c.value - 1, r.set k ⟨c.value - 1, c.expiresAt⟩)
  | none   => (0, r)

end Redis

structure RateLimitCheckResult where
  allowed : Bool
  retryAfter : Option Nat
  deriving DecidableEq, Repr

def consumeAttempt (r : Redis) (k limit windowSec : Nat) : RateLimitCheckResult × Redis :=
  match r.rateLimitLua k windowSec with
  | ((count, ttl), r') =>
      if count > limit then (⟨false, some (if ttl > 0 then ttl else windowSec)⟩, r')
      else (⟨true, none⟩, r')

def refundAttempt (r : Redis) (k : Nat) : Redis := (r.refundLua k).2

/-! ## Logins -/

inductive Phase where
  /-- its script is on the way -/
  | consuming
  | refused (retryAfter : Option Nat)
  /-- admitted: the device, the account and the password are checked -/
  | checking
  | failed
  /-- it succeeded, and its refund is on the way, under the key of the window it was sent in -/
  | refunding (k : Nat)
  /-- whether a key was there to take the refund -/
  | done (refunded : Bool)
  deriving DecidableEq, Repr

structure Login where
  /-- the window whose key its attempt is counted under -/
  window : Nat
  phase : Phase
  deriving DecidableEq, Repr

namespace Login

variable (l : Login)

/-- Its attempt was counted, and not given back. -/
def held : Bool :=
  match l.phase with
  | .consuming | .done true => false
  | _                       => true

/-- It was let through, and has not given its attempt back. -/
def admitted : Bool :=
  match l.phase with
  | .checking | .failed | .refunding _ | .done false => true
  | _                                                => false

/-- It was let through and failed. -/
def guessed : Bool := l.phase = .failed

/-- It failed, let through or not. -/
def fails : Bool :=
  match l.phase with
  | .failed | .refused _ => true
  | _                    => false

end Login

structure State where
  redis : Redis
  logins : List Login
  /-- of every refund that a key took: the window that the attempt was counted in, and the key's -/
  refunds : List (Nat × Nat)

inductive Act where
  | tick (d : Nat)
  /-- a login comes in, and sends its attempt -/
  | login
  | consume (i : Nat)
  | fail (i : Nat)
  | succeed (i : Nat)
  | refund (i : Nat)

namespace State

variable (s : State)

def put (i : Nat) (l : Login) (r : Redis) : State := { s with redis := r, logins := s.logins.set i l }

/-- The attempts of a window of which `p` holds. -/
def count (p : Login → Bool) (w : Nat) : Nat := s.logins.countP fun l => l.window = w && p l

def consume (limit windowSec i : Nat) (l : Login) : State :=
  match consumeAttempt s.redis l.window limit windowSec with
  | (⟨true, _⟩, r)           => s.put i { l with phase := .checking } r
  | (⟨false, retryAfter⟩, r) => s.put i { l with phase := .refused retryAfter } r

def refund (i : Nat) (l : Login) (k : Nat) : State :=
  match s.redis.get k with
  | some _ =>
      { s.put i { l with phase := .done true } (refundAttempt s.redis k) with
        refunds := (l.window, k) :: s.refunds }
  | none => s.put i { l with phase := .done false } (refundAttempt s.redis k)

end State

/-- One act. Where the login is elsewhere, nothing happens. -/
def step (limit windowSec : Nat) (a : Act) (s : State) : State :=
  match a with
  | .tick d => { s with redis := { s.redis with now := s.redis.now + d } }
  | .login  => { s with logins := s.logins ++ [⟨windowKey s.redis.now windowSec, .consuming⟩] }
  | .consume i =>
      match s.logins[i]? with
      | some ⟨w, .consuming⟩ => s.consume limit windowSec i ⟨w, .consuming⟩
      | _                    => s
  | .fail i =>
      match s.logins[i]? with
      | some ⟨w, .checking⟩ => s.put i ⟨w, .failed⟩ s.redis
      | _                   => s
  | .succeed i =>
      match s.logins[i]? with
      | some ⟨w, .checking⟩ => s.put i ⟨w, .refunding (windowKey s.redis.now windowSec)⟩ s.redis
      | _                   => s
  | .refund i =>
      match s.logins[i]? with
      | some ⟨w, .refunding k⟩ => s.refund i ⟨w, .refunding k⟩ k
      | _                      => s

def run (limit windowSec : Nat) (acts : List Act) (s : State) : State :=
  acts.foldl (fun s a => step limit windowSec a s) s

def start (now : Nat) : State := ⟨⟨now, fun _ => none⟩, [], []⟩

/-! ## The statement -/

structure State.Limited (limit : Nat) (s : State) : Prop where
  /-- of the attempts let through in a window no more than the limit fail -/
  guessed : ∀ w, s.count Login.guessed w ≤ limit
  /-- the counter of a window holds every failure that was counted in it -/
  counter : ∀ w c, s.redis.get w = some c → 0 ≤ c.value ∧ (s.count Login.fails w : Int) ≤ c.value
  /-- a refund is taken by the window that counted the attempt -/
  refunds : ∀ p ∈ s.refunds, p.1 = p.2

/-- An attempt is not counted under a key that has expired since it counted another, and where a refund
is late, the window it comes to has no key yet. -/
def MeetsLimit (s : State) : Act → Prop
  | .consume i => ∀ w, s.logins[i]? = some ⟨w, .consuming⟩ →
      s.redis.get w ≠ none ∨ ∀ l ∈ s.logins, l.window = w → l.phase = .consuming
  | .refund i => ∀ w k, s.logins[i]? = some ⟨w, .refunding k⟩ → k = w ∨ s.redis.get k = none
  | _ => True

/-- Every act of the run meets the condition. -/
def AllMeet (limit windowSec : Nat) : List Act → State → Prop
  | [], _        => True
  | a :: acts, s => MeetsLimit s a ∧ AllMeet limit windowSec acts (step limit windowSec a s)

/-! ## Counting -/

variable {s : State} {limit windowSec i w k : Nat} {l : Login} {p q : Login → Bool}

/-- One login moves on. -/
theorem count_put {m : Login} {r : Redis} (h : s.logins[i]? = some l) (hw : m.window = l.window) :
    (s.put i m r).count p w + (if l.window = w ∧ p l = true then 1 else 0) =
      s.count p w + (if l.window = w ∧ p m = true then 1 else 0) := by
  obtain ⟨hi, hl⟩ := List.getElem?_eq_some_iff.mp h
  have hle : (if l.window = w ∧ p l = true then 1 else 0) ≤ s.count p w := by
    split
    · rename_i hp
      refine List.countP_pos_iff.mpr ⟨l, hl ▸ List.getElem_mem hi, ?_⟩
      simpa using hp
    · exact Nat.zero_le _
  have hset := List.countP_set (p := fun l => l.window = w && p l) (a := m) hi
  rw [hl] at hset
  simp only [Bool.and_eq_true, decide_eq_true_eq, hw] at hset
  show (s.logins.set i m).countP _ + _ = _
  rw [hset]
  simp only [State.count] at hle ⊢
  omega

/-- It moves on to where it is counted as before. -/
theorem count_put_same {m : Login} {r : Redis} (h : s.logins[i]? = some l) (hw : m.window = l.window)
    (hp : p m = p l) : (s.put i m r).count p w = s.count p w := by
  have hput := count_put (p := p) (w := w) (r := r) h hw
  rw [hp] at hput
  omega

theorem count_le (hpq : ∀ l, p l = true → q l = true) : s.count p w ≤ s.count q w := by
  refine List.countP_mono_left fun l _ hl => ?_
  simp only [Bool.and_eq_true] at hl ⊢
  exact ⟨hl.1, hpq l hl.2⟩

theorem admitted_held (h : l.admitted = true) : l.held = true := by
  obtain ⟨w, phase⟩ := l
  cases phase with
  | done refunded =>
      cases refunded with
      | false => rfl
      | true => cases h
  | _ => first | rfl | cases h

theorem guessed_admitted (h : l.guessed = true) : l.admitted = true := by
  simp only [Login.guessed, decide_eq_true_eq] at h
  simp [Login.admitted, h]

theorem fails_held (h : l.fails = true) : l.held = true := by
  obtain ⟨w, phase⟩ := l
  cases phase with
  | failed => rfl
  | refused _ => rfl
  | _ => cases h

/-! ## The invariant -/

structure Kept (limit windowSec : Nat) (s : State) : Prop where
  /-- a counter is the number of the attempts of its window that were not given back -/
  value : ∀ w c, s.redis.get w = some c → c.value = s.count Login.held w
  admitted : ∀ w, s.count Login.admitted w ≤ limit
  refunds : ∀ p ∈ s.refunds, p.1 = p.2
  started : ∀ l ∈ s.logins, l.window * (windowSec * 1000) ≤ s.redis.now
  /-- a key does not expire in its window -/
  dated : ∀ w c, s.redis.keys w = some c → (w + 1) * (windowSec * 1000) ≤ c.expiresAt
  keyed : ∀ l ∈ s.logins, l.phase ≠ .consuming → s.redis.keys l.window ≠ none

theorem Kept.limited (h : Kept limit windowSec s) : s.Limited limit where
  guessed := fun w => (count_le fun _ => guessed_admitted).trans (h.admitted w)
  counter := by
    intro w c hc
    rw [h.value w c hc]
    refine ⟨Int.natCast_nonneg _, Int.ofNat_le.mpr ?_⟩
    exact count_le fun _ => fails_held
  refunds := h.refunds

theorem Kept.start (limit windowSec now : Nat) : Kept limit windowSec (start now) where
  value := by simp [RateLimit.start, Redis.get]
  admitted := by simp [RateLimit.start, State.count]
  refunds := by simp [RateLimit.start]
  started := by simp [RateLimit.start]
  dated := by simp [RateLimit.start]
  keyed := by simp [RateLimit.start]

theorem windowKey_mul_le (now windowSec : Nat) : windowKey now windowSec * (windowSec * 1000) ≤ now := by
  rw [windowKey, Nat.div_div_eq_div_mul, Nat.mul_comm 1000]
  exact Nat.div_mul_le_self now (windowSec * 1000)

theorem lt_windowKey_succ (h : 0 < windowSec) (now : Nat) :
    now < (windowKey now windowSec + 1) * (windowSec * 1000) := by
  rw [windowKey, Nat.div_div_eq_div_mul, Nat.mul_comm 1000, Nat.mul_comm]
  exact Nat.lt_mul_div_succ now (Nat.mul_pos h (by decide))

/-! ## One act -/

theorem get_keys {r : Redis} {c : Counter} (h : r.get k = some c) : r.keys k = some c :=
  (Option.filter_eq_some_iff.mp h).1

/-- What is there after a key was written. -/
theorem get_set {r : Redis} {c c' : Counter} (h : (r.set k c).get w = some c') :
    w = k ∧ c' = c ∨ w ≠ k ∧ r.get w = some c' := by
  simp only [Redis.get, Redis.set, Function.update_apply] at h
  split at h
  · rename_i hw
    exact .inl ⟨hw, (Option.some.inj (Option.filter_eq_some_iff.mp h).1).symm⟩
  · rename_i hw
    exact .inr ⟨hw, h⟩

theorem keys_set {r : Redis} {c c' : Counter} (h : (r.set k c).keys w = some c') :
    w = k ∧ c' = c ∨ w ≠ k ∧ r.keys w = some c' := by
  simp only [Redis.set, Function.update_apply] at h
  split at h
  · rename_i hw
    exact .inl ⟨hw, (Option.some.inj h).symm⟩
  · rename_i hw
    exact .inr ⟨hw, h⟩

theorem keys_set_ne_none {r : Redis} {c : Counter} (h : r.keys w ≠ none ∨ w = k) :
    (r.set k c).keys w ≠ none := by
  by_cases hw : w = k
  · simp [Redis.set, hw]
  · simpa [Redis.set, hw] using h.resolve_right hw

/-- What an attempt gets is decided by what it counted. -/
theorem consumeAttempt_refused {r : Redis} (h : (r.incr k windowSec).value > limit) :
    ∃ t, consumeAttempt r k limit windowSec = (⟨false, some t⟩, r.set k (r.incr k windowSec)) :=
  ⟨_, if_pos h⟩

theorem consumeAttempt_allowed {r : Redis} (h : ¬(r.incr k windowSec).value > limit) :
    consumeAttempt r k limit windowSec = (⟨true, none⟩, r.set k (r.incr k windowSec)) := if_neg h

theorem mem_put {l' l'' : Login} {r : Redis} (h : l'' ∈ (s.put i l' r).logins) :
    l'' ∈ s.logins ∨ l'' = l' := List.mem_or_eq_of_mem_set h

namespace Kept

/-- Time only passes: counters that run out are gone, and no window is over before its time. -/
theorem tick (h : Kept limit windowSec s) (d : Nat) :
    Kept limit windowSec { s with redis := { s.redis with now := s.redis.now + d } } where
  value := by
    intro w c hc
    refine h.value w c ?_
    obtain ⟨hkey, hlive⟩ := Option.filter_eq_some_iff.mp hc
    refine Option.filter_eq_some_iff.mpr ⟨hkey, ?_⟩
    simp only [decide_eq_true_eq] at hlive ⊢
    omega
  admitted := h.admitted
  refunds := h.refunds
  started := fun l hl => (h.started l hl).trans (Nat.le_add_right _ d)
  dated := h.dated
  keyed := h.keyed

/-- A login comes in. Nothing is counted yet. -/
theorem login (h : Kept limit windowSec s) :
    Kept limit windowSec
      { s with logins := s.logins ++ [⟨windowKey s.redis.now windowSec, .consuming⟩] } where
  value := by
    intro w c hc
    rw [h.value w c hc]
    simp [State.count, Login.held]
  admitted := by
    intro w
    simpa [State.count, Login.admitted] using h.admitted w
  refunds := h.refunds
  started := by
    intro l hl
    rcases List.mem_append.mp hl with hl | hl
    · exact h.started l hl
    · rw [List.mem_singleton.mp hl]
      exact windowKey_mul_le _ _
  dated := h.dated
  keyed := by
    intro l hl hphase
    rcases List.mem_append.mp hl with hl | hl
    · exact h.keyed l hl hphase
    · rw [List.mem_singleton.mp hl] at hphase
      exact absurd rfl hphase

/-- A login moves on without a script, counted and let through as before. -/
theorem put (h : Kept limit windowSec s) {l' : Login} (hl : s.logins[i]? = some l)
    (hw : l'.window = l.window) (hheld : l'.held = l.held) (hadmitted : l'.admitted = l.admitted)
    (hphase : l.phase ≠ .consuming) : Kept limit windowSec (s.put i l' s.redis) where
  value := by
    intro w c hc
    rw [count_put_same hl hw hheld]
    exact h.value w c hc
  admitted := by
    intro w
    rw [count_put_same hl hw hadmitted]
    exact h.admitted w
  refunds := h.refunds
  started := by
    intro l'' hl''
    rcases mem_put hl'' with hl'' | rfl
    · exact h.started l'' hl''
    · rw [hw]
      exact h.started l (List.mem_of_getElem? hl)
  dated := h.dated
  keyed := by
    intro l'' hl'' hphase''
    rcases mem_put hl'' with hl'' | rfl
    · exact h.keyed l'' hl'' hphase''
    · show s.redis.keys l''.window ≠ none
      rw [hw]
      exact h.keyed l (List.mem_of_getElem? hl) hphase

/-- The counter of a window, one higher, is the number of its attempts, the new one included. -/
theorem incr_value (h : Kept limit windowSec s)
    (hcond : s.redis.get w ≠ none ∨ ∀ l ∈ s.logins, l.window = w → l.phase = .consuming) :
    (s.redis.incr w windowSec).value = s.count Login.held w + 1 := by
  rw [Redis.incr]
  cases hget : s.redis.get w with
  | some c =>
      show c.value + 1 = _
      rw [h.value w c hget]
  | none =>
      have hnone : s.count Login.held w = 0 := by
        refine List.countP_eq_zero.mpr fun l hl hp => ?_
        simp only [Bool.and_eq_true, decide_eq_true_eq] at hp
        have hphase := hcond.resolve_left (fun hne => hne hget) l hl hp.1
        rw [Login.held, hphase] at hp
        exact absurd hp.2 Bool.false_ne_true
      rw [hnone]
      rfl

/-- The counter of a window lives at least until the window is over. -/
theorem incr_expiresAt (h : Kept limit windowSec s) (hstarted : w * (windowSec * 1000) ≤ s.redis.now) :
    (w + 1) * (windowSec * 1000) ≤ (s.redis.incr w windowSec).expiresAt := by
  have hnew : (w + 1) * (windowSec * 1000) ≤ s.redis.now + windowSec * 1000 := by
    rw [Nat.succ_mul]
    exact Nat.add_le_add_right hstarted _
  rw [Redis.incr]
  cases hget : s.redis.get w with
  | some c =>
      show _ ≤ if c.value + 1 = 1 then _ else _
      split
      · exact hnew
      · exact h.dated w c (get_keys hget)
  | none => exact hnew

/-- An attempt is counted, and is let through or not. -/
theorem counted (h : Kept limit windowSec s) (hl : s.logins[i]? = some ⟨w, .consuming⟩)
    (hcond : s.redis.get w ≠ none ∨ ∀ l ∈ s.logins, l.window = w → l.phase = .consuming) {f : Phase}
    (hheld : (Login.mk w f).held = true)
    (hadmitted : (Login.mk w f).admitted = true → (s.redis.incr w windowSec).value ≤ limit) :
    Kept limit windowSec (s.put i ⟨w, f⟩ (s.redis.set w (s.redis.incr w windowSec))) where
  value := by
    intro w' c hc
    have hput := count_put (p := Login.held) (w := w') (m := ⟨w, f⟩)
      (r := s.redis.set w (s.redis.incr w windowSec)) hl rfl
    have hbefore : (Login.mk w .consuming).held = false := rfl
    simp only [hheld, hbefore, and_true, Bool.false_eq_true, and_false, if_false, Nat.add_zero] at hput
    rw [hput]
    rcases get_set hc with ⟨rfl, rfl⟩ | ⟨hne, hc⟩
    · rw [h.incr_value hcond]
      simp
    · rw [h.value w' c hc, if_neg (Ne.symm hne)]
      simp
  admitted := by
    intro w'
    have hput := count_put (p := Login.admitted) (w := w') (m := ⟨w, f⟩)
      (r := s.redis.set w (s.redis.incr w windowSec)) hl rfl
    have hbefore : (Login.mk w .consuming).admitted = false := rfl
    simp only [hbefore, Bool.false_eq_true, and_false, if_false, Nat.add_zero] at hput
    rw [hput]
    split
    · rename_i hp
      obtain ⟨rfl, hp⟩ := hp
      have hvalue := hadmitted hp
      rw [h.incr_value hcond] at hvalue
      have hle : s.count Login.admitted w ≤ s.count Login.held w := count_le fun _ => admitted_held
      omega
    · exact h.admitted w'
  refunds := h.refunds
  started := by
    intro l hl'
    rcases mem_put hl' with hl' | rfl
    · exact h.started l hl'
    · exact h.started ⟨w, .consuming⟩ (List.mem_of_getElem? hl)
  dated := by
    intro w' c hc
    rcases keys_set hc with ⟨rfl, rfl⟩ | ⟨-, hc⟩
    · exact h.incr_expiresAt (h.started _ (List.mem_of_getElem? hl))
    · exact h.dated w' c hc
  keyed := by
    intro l hl' hphase
    refine keys_set_ne_none ?_
    rcases mem_put hl' with hl' | rfl
    · exact .inl (h.keyed l hl' hphase)
    · exact .inr rfl

theorem consume (h : Kept limit windowSec s) (hl : s.logins[i]? = some ⟨w, .consuming⟩)
    (hcond : s.redis.get w ≠ none ∨ ∀ l ∈ s.logins, l.window = w → l.phase = .consuming) :
    Kept limit windowSec (s.consume limit windowSec i ⟨w, .consuming⟩) := by
  rw [State.consume]
  by_cases hlimit : (s.redis.incr w windowSec).value > limit
  · obtain ⟨t, heq⟩ := consumeAttempt_refused hlimit
    rw [heq]
    exact h.counted hl hcond (f := .refused (some t)) rfl fun hadmitted => nomatch hadmitted
  · rw [consumeAttempt_allowed hlimit]
    exact h.counted hl hcond (f := .checking) rfl fun _ => not_lt.mp hlimit

/-- The key of the window that counted an attempt takes its refund. -/
theorem refunded (h : Kept limit windowSec s) (hl : s.logins[i]? = some ⟨w, .refunding k⟩) {c : Counter}
    (hget : s.redis.get w = some c) :
    Kept limit windowSec
      { s.put i ⟨w, .done true⟩ (s.redis.set w ⟨c.value - 1, c.expiresAt⟩) with
        refunds := (w, w) :: s.refunds } := by
  have hmem := List.mem_of_getElem? hl
  have hput := fun p w' => count_put (p := p) (w := w') (m := ⟨w, .done true⟩)
    (r := s.redis.set w ⟨c.value - 1, c.expiresAt⟩) hl rfl
  constructor
  case value =>
    intro w' c' hc'
    have hheld := hput Login.held w'
    simp only [Login.held, and_true, Bool.false_eq_true, and_false, if_false] at hheld
    simp only [State.count] at hheld ⊢
    rcases get_set hc' with ⟨rfl, rfl⟩ | ⟨hne, hc'⟩
    · have hvalue := h.value _ c hget
      rw [if_pos rfl] at hheld
      simp only [State.count] at hvalue
      show c.value - 1 = _
      rw [hvalue]
      simp only [State.put, Login.held] at hheld ⊢
      omega
    · rw [if_neg (Ne.symm hne)] at hheld
      rw [h.value w' c' hc']
      simp only [State.count, State.put, Login.held] at hheld ⊢
      omega
  case admitted =>
    intro w'
    have hadmitted := hput Login.admitted w'
    have hle := h.admitted w'
    simp only [Login.admitted, Bool.false_eq_true, and_false, if_false] at hadmitted
    simp only [State.count, State.put, Login.admitted] at hadmitted hle ⊢
    omega
  case refunds =>
    intro p hp
    rcases List.mem_cons.mp hp with rfl | hp
    · rfl
    · exact h.refunds p hp
  case started =>
    intro l hl'
    rcases List.mem_or_eq_of_mem_set hl' with hl' | rfl
    · exact h.started l hl'
    · exact h.started ⟨w, .refunding k⟩ hmem
  case dated =>
    intro w' c' hc'
    rcases keys_set hc' with ⟨rfl, rfl⟩ | ⟨-, hc'⟩
    · exact h.dated _ c (get_keys hget)
    · exact h.dated w' c' hc'
  case keyed =>
    intro l hl' hphase
    refine keys_set_ne_none ?_
    rcases List.mem_or_eq_of_mem_set hl' with hl' | rfl
    · exact .inl (h.keyed l hl' hphase)
    · exact .inr rfl

theorem refund (h : Kept limit windowSec s) (hl : s.logins[i]? = some ⟨w, .refunding k⟩)
    (hcond : k = w ∨ s.redis.get k = none) :
    Kept limit windowSec (s.refund i ⟨w, .refunding k⟩ k) := by
  rw [State.refund, refundAttempt, Redis.refundLua]
  cases hget : s.redis.get k with
  | none => exact h.put hl rfl rfl rfl (by simp)
  | some c =>
      obtain rfl : k = w := hcond.resolve_right (by simp [hget])
      exact h.refunded hl hget

/-- **One act keeps it**, as far as it meets the condition. -/
theorem step (h : Kept limit windowSec s) (a : Act) (hmeets : MeetsLimit s a) :
    Kept limit windowSec (step limit windowSec a s) := by
  cases a with
  | tick d => exact h.tick d
  | login => exact h.login
  | consume i =>
      rw [RateLimit.step]
      split
      · rename_i w hl
        exact h.consume hl (hmeets w hl)
      · exact h
  | fail i =>
      rw [RateLimit.step]
      split
      · rename_i w hl
        exact h.put hl rfl rfl rfl (by simp)
      · exact h
  | succeed i =>
      rw [RateLimit.step]
      split
      · rename_i w hl
        exact h.put hl rfl rfl rfl (by simp)
      · exact h
  | refund i =>
      rw [RateLimit.step]
      split
      · rename_i w k hl
        exact h.refund hl (hmeets w k hl)
      · exact h

/-- An attempt whose script runs in the window it was sent in finds the key that counted the others. -/
theorem prompt (h : Kept limit windowSec s) (hpos : 0 < windowSec)
    (hw : windowKey s.redis.now windowSec = w) :
    s.redis.get w ≠ none ∨ ∀ l ∈ s.logins, l.window = w → l.phase = .consuming := by
  by_cases hcounted : ∃ l ∈ s.logins, l.window = w ∧ l.phase ≠ .consuming
  · obtain ⟨l, hl, rfl, hphase⟩ := hcounted
    obtain ⟨c, hc⟩ := Option.ne_none_iff_exists'.mp (h.keyed l hl hphase)
    have hlt := lt_windowKey_succ hpos s.redis.now
    rw [hw] at hlt
    refine .inl (Option.ne_none_iff_exists'.mpr ⟨c, ?_⟩)
    exact Option.filter_eq_some_iff.mpr ⟨hc, decide_eq_true (hlt.trans_le (h.dated _ c hc))⟩
  · refine .inr fun l hl hlw => ?_
    by_contra hphase
    exact hcounted ⟨l, hl, hlw, hphase⟩

end Kept

/-- By induction on the run. -/
theorem run_kept (h : Kept limit windowSec s) (acts : List Act)
    (hmeets : AllMeet limit windowSec acts s) : Kept limit windowSec (run limit windowSec acts s) := by
  induction acts generalizing s with
  | nil => exact h
  | cons a acts ih => exact ih (h.step a hmeets.1) hmeets.2

/-- **No extra guesses**: where every refund comes to the window that counted its attempt, or to none, a
window lets no more than the limit of attempts through that fail. -/
theorem run_limited (limit windowSec now : Nat) (acts : List Act)
    (hmeets : AllMeet limit windowSec acts (start now)) :
    (run limit windowSec acts (start now)).Limited limit :=
  (run_kept (.start limit windowSec now) acts hmeets).limited

/-! ## Logins from one address -/

/-- Two logins of which the first succeeds in the window that counted them both. A third one takes until
the next window, where it finds no key to give its attempt back to, and a fourth one fails there. -/
def overRollover : List Act :=
  [.login, .consume 0, .login, .consume 1, .fail 1, .tick 5000, .succeed 0, .refund 0, .login, .consume 2,
    .tick 60000, .succeed 2, .refund 2, .login, .consume 3, .fail 3]

theorem run_limited_of_login : (run 10 60 overRollover (start 0)).Limited 10 := by
  refine run_limited 10 60 0 overRollover ⟨trivial, ?_, trivial, ?_, trivial, trivial, trivial, ?_, trivial,
    ?_, trivial, trivial, ?_, trivial, ?_, trivial, trivial⟩
  · intro w hl
    refine ((Kept.start 10 60 0).login).prompt (by decide) ?_
    exact congrArg Login.window (Option.some.inj hl)
  · intro w hl
    obtain rfl : 0 = w := congrArg Login.window (Option.some.inj hl)
    exact .inl (by decide)
  · intro w k hl
    obtain ⟨rfl, hk⟩ := Login.mk.inj (Option.some.inj hl)
    exact .inl (Phase.refunding.inj hk).symm
  · intro w hl
    obtain rfl : 0 = w := congrArg Login.window (Option.some.inj hl)
    exact .inl (by decide)
  · intro w k hl
    obtain ⟨rfl, hk⟩ := Login.mk.inj (Option.some.inj hl)
    obtain rfl := Phase.refunding.inj hk
    exact .inr (by decide)
  · intro w hl
    obtain rfl : 1 = w := congrArg Login.window (Option.some.inj hl)
    exact .inr (by decide)

/-- `n` logins that fail, from the `i`-th on. -/
def failures (i : Nat) : Nat → List Act
  | 0     => []
  | n + 1 => .login :: .consume i :: .fail i :: failures (i + 1) n

/-- **A guess is gained.** A login that took until the next window gives its attempt back there, and an
eleventh failure is let through; two such logins bring the counter below zero. -/
theorem guess_gained :
    ¬(run 10 60 ([.login, .consume 0, .tick 60000] ++ failures 1 10 ++ [.succeed 0, .refund 0] ++
      failures 11 1) (start 0)).Limited 10 ∧
    ¬(run 10 60 [.login, .login, .consume 0, .consume 1, .tick 60000, .login, .consume 2, .succeed 0,
      .succeed 1, .refund 0, .refund 1] (start 0)).Limited 10 := by
  constructor
  · intro h
    exact absurd (h.guessed 1) (by decide +kernel)
  · intro h
    exact absurd (h.counter 1 ⟨-1, 120000⟩ (by decide +kernel)).1 (by decide)

end RateLimit
