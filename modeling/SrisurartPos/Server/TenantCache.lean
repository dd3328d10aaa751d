import Mathlib.Logic.Function.Basic
import Mathlib.Logic.Relation
import Mathlib.Data.List.Basic

/-! # The read cache (`tenant-cache.service.ts`)

Every cached value lives under a *generation*, a random token of its namespace. A reader takes the
generation before it queries the database; a writer replaces the generation after its commit, so that
what was read before can no longer be found.

Readers and writers of any number of server processes share one Redis and nothing else: each step
below is one of its commands, a database read or a commit. A key may expire or be evicted at any
moment, and any command of a reader may fail. A namespace `N` stands for a tenant with one of its
groups of keys. -/

set_option linter.unusedSectionVars false

namespace TenantCache

/-- `randomBytes(8)`: a token is drawn once. -/
abbrev Token := Nat

/-- A cached value, with the number of commits the database had seen when it was read. -/
structure Entry (V : Type) where
  version : Nat
  value : V

/-- Where a reader (`ProductsService.list`) stands. -/
inductive Reader (N Q V : Type) where
  | idle
  /-- `prefix`: before `GET gen` -/
  | fetch (n : N) (q : Q)
  /-- before `SET gen NX` -/
  | create (n : N) (q : Q)
  /-- before the second `GET gen` -/
  | refetch (n : N) (q : Q)
  /-- before `get` under the generation that was read -/
  | lookup (n : N) (q : Q) (gen : Token)
  /-- in `singleFlight`, polling for the lock or the value -/
  | wait (n : N) (q : Q) (gen : Token)
  /-- before the database read; without a generation nothing is cached -/
  | load (n : N) (q : Q) (gen : Option Token) (lock : Option Token)
  /-- before `set` -/
  | store (n : N) (q : Q) (gen : Token) (lock : Option Token) (e : Entry V)
  /-- before `release`; no entry when the load has thrown -/
  | release (n : N) (q : Q) (gen : Token) (lock : Option Token) (e : Option (Entry V))
  | returned (n : N) (q : Q) (e : Entry V)
  | failed

/-- Where a writer stands: it has not committed, or it committed as the `version`-th and has
invalidated some of its namespaces since. -/
inductive Writer (N : Type) where
  | open
  | committed (version : Nat) (invalidated : List N)

variable {N Q D V R W : Type} [DecidableEq N] [DecidableEq Q] [DecidableEq R] [DecidableEq W]

/-- Redis, the database and everyone who uses them. -/
structure State (N Q D V R W : Type) where
  db : D
  /-- how many writers have committed -/
  version : Nat
  gen : N → Option Token
  cached : N × Token × Q → Option (Entry V)
  lock : N × Token × Q → Option Token
  /-- the tokens that have been drawn -/
  drawn : List Token
  readers : R → Reader N Q V
  writers : W → Writer N

namespace State

variable (s : State N Q D V R W)

def setReader (r : R) (p : Reader N Q V) : State N Q D V R W :=
  { s with readers := Function.update s.readers r p }

def setWriter (w : W) (p : Writer N) : State N Q D V R W :=
  { s with writers := Function.update s.writers w p }

def setGen (n : N) (g : Option Token) : State N Q D V R W :=
  { s with gen := Function.update s.gen n g }

def setCached (k : N × Token × Q) (e : Option (Entry V)) : State N Q D V R W :=
  { s with cached := Function.update s.cached k e }

def setLock (k : N × Token × Q) (t : Option Token) : State N Q D V R W :=
  { s with lock := Function.update s.lock k t }

def draw (t : Token) : State N Q D V R W := { s with drawn := t :: s.drawn }

/-- `SET gen NX` -/
def createGen (n : N) (t : Token) : State N Q D V R W :=
  (s.draw t).setGen n (some ((s.gen n).getD t))

/-- `RELEASE_LOCK`: the lock, unless it is someone else's by now. -/
def releaseLock (k : N × Token × Q) (t : Option Token) : State N Q D V R W :=
  if t.isSome ∧ s.lock k = t then s.setLock k none else s

/-- A database nobody has written to yet, and an empty Redis. -/
def init (d : D) : State N Q D V R W :=
  { db := d
    version := 0
    gen := fun _ => none
    cached := fun _ => none
    lock := fun _ => none
    drawn := []
    readers := fun _ => .idle
    writers := fun _ => .open }

section
variable {s}

@[simp] theorem setReader_self (r : R) (p : Reader N Q V) : (s.setReader r p).readers r = p :=
  Function.update_self ..

theorem setReader_ne {r r' : R} (h : r' ≠ r) (p : Reader N Q V) :
    (s.setReader r p).readers r' = s.readers r' := Function.update_of_ne h ..

@[simp] theorem setGen_self (n : N) (g : Option Token) : (s.setGen n g).gen n = g :=
  Function.update_self ..

theorem setGen_ne {n n' : N} (h : n' ≠ n) (g : Option Token) : (s.setGen n g).gen n' = s.gen n' :=
  Function.update_of_ne h ..

@[simp] theorem setCached_self (k : N × Token × Q) (e : Option (Entry V)) :
    (s.setCached k e).cached k = e := Function.update_self ..

theorem setCached_ne {k k' : N × Token × Q} (h : k' ≠ k) (e : Option (Entry V)) :
    (s.setCached k e).cached k' = s.cached k' := Function.update_of_ne h ..

@[simp] theorem setWriter_self (w : W) (p : Writer N) : (s.setWriter w p).writers w = p :=
  Function.update_self ..

theorem setWriter_ne {w w' : W} (h : w' ≠ w) (p : Writer N) :
    (s.setWriter w p).writers w' = s.writers w' := Function.update_of_ne h ..

end

end State

/-- One command. `answer` is what the database says to a query. -/
inductive Step (answer : N → Q → D → V) : State N Q D V R W → State N Q D V R W → Prop where
  | start {s} (r n q) : s.readers r = .idle → Step answer s (s.setReader r (.fetch n q))
  | fetched {s} (r n q g) : s.readers r = .fetch n q → s.gen n = some g →
      Step answer s (s.setReader r (.lookup n q g))
  | noGen {s} (r n q) : s.readers r = .fetch n q → s.gen n = none →
      Step answer s (s.setReader r (.create n q))
  | created {s} (r n q t) : s.readers r = .create n q → t ∉ s.drawn →
      Step answer s ((s.createGen n t).setReader r (.refetch n q))
  | refetched {s} (r n q g) : s.readers r = .refetch n q → s.gen n = some g →
      Step answer s (s.setReader r (.lookup n q g))
  | evicted {s} (r n q) : s.readers r = .refetch n q → s.gen n = none →
      Step answer s (s.setReader r (.load n q none none))
  /-- Redis cannot answer: the reader goes on without a cache -/
  | noPrefix {s} (r n q) : s.readers r = .fetch n q ∨ s.readers r = .create n q ∨
      s.readers r = .refetch n q → Step answer s (s.setReader r (.load n q none none))
  | hit {s} (r n q g e) : s.readers r = .lookup n q g → s.cached (n, g, q) = some e →
      Step answer s (s.setReader r (.returned n q e))
  /-- no value, or no answer -/
  | miss {s} (r n q g) : s.readers r = .lookup n q g → Step answer s (s.setReader r (.wait n q g))
  | locked {s} (r n q g t) : s.readers r = .wait n q g → s.lock (n, g, q) = none → t ∉ s.drawn →
      Step answer s
        (((s.draw t).setLock (n, g, q) (some t)).setReader r (.load n q (some g) (some t)))
  /-- another request has loaded the value in the meantime -/
  | joined {s} (r n q g e) : s.readers r = .wait n q g → s.cached (n, g, q) = some e →
      Step answer s (s.setReader r (.returned n q e))
  /-- the deadline has passed, or Redis cannot answer -/
  | unlocked {s} (r n q g) : s.readers r = .wait n q g →
      Step answer s (s.setReader r (.load n q (some g) none))
  | loaded {s} (r n q g l) : s.readers r = .load n q (some g) l →
      Step answer s (s.setReader r (.store n q g l ⟨s.version, answer n q s.db⟩))
  | loadedUncached {s} (r n q l) : s.readers r = .load n q none l →
      Step answer s (s.setReader r (.returned n q ⟨s.version, answer n q s.db⟩))
  | threw {s} (r n q g l) : s.readers r = .load n q (some g) l →
      Step answer s (s.setReader r (.release n q g l none))
  | stored {s} (r n q g l e) : s.readers r = .store n q g l e →
      Step answer s ((s.setCached (n, g, q) (some e)).setReader r (.release n q g l (some e)))
  | notStored {s} (r n q g l e) : s.readers r = .store n q g l e →
      Step answer s (s.setReader r (.release n q g l (some e)))
  | released {s} (r n q g l e) : s.readers r = .release n q g l (some e) →
      Step answer s ((s.releaseLock (n, g, q) l).setReader r (.returned n q e))
  | gaveUp {s} (r n q g l) : s.readers r = .release n q g l none →
      Step answer s ((s.releaseLock (n, g, q) l).setReader r .failed)
  /-- a writer's transaction commits -/
  | commit {s} (w d) : s.writers w = .open →
      Step answer s ({ s with db := d, version := s.version + 1 }.setWriter w
        (.committed (s.version + 1) []))
  /-- `invalidate`: a fresh generation -/
  | invalidate {s} (w n k done t) : s.writers w = .committed k done → t ∉ s.drawn →
      Step answer s (((s.draw t).setGen n (some t)).setWriter w (.committed k (n :: done)))
  | expireGen {s} (n) : Step answer s (s.setGen n none)
  | expireValue {s} (k) : Step answer s (s.setCached k none)
  | expireLock {s} (k) : Step answer s (s.setLock k none)

/-- Any number of commands. -/
abbrev Runs (answer : N → Q → D → V) : State N Q D V R W → State N Q D V R W → Prop :=
  Relation.ReflTransGen (Step answer)

/-! ## What stands under a generation -/

/-- The generation a reader goes by. -/
def Reader.gen : Reader N Q V → Option (N × Token)
  | .lookup n _ g | .wait n _ g | .load n _ (some g) _ | .store n _ g _ _ | .release n _ g _ _ =>
      some (n, g)
  | _ => none

/-- What a reader is about to cache. -/
def Reader.pending : Reader N Q V → Option (N × Token × Entry V)
  | .store n _ g _ e => some (n, g, e)
  | _                => none

/-- Tokens come from draws. -/
structure Drawn (s : State N Q D V R W) : Prop where
  gen : ∀ n g, s.gen n = some g → g ∈ s.drawn
  cached : ∀ n g q e, s.cached (n, g, q) = some e → g ∈ s.drawn
  reader : ∀ r n g, (s.readers r).gen = some (n, g) → g ∈ s.drawn

/-- What holds of the namespace `n` from the moment an invalidation after the `k`-th commit is
through: the generations that can be met from then on are those of `L`, and what stands under them
was read after the commit. -/
structure After (L : Token → Prop) (s : State N Q D V R W) (n : N) (k : Nat) : Prop where
  version : k ≤ s.version
  gen : ∀ g, s.gen n = some g → L g
  undrawn : ∀ g, g ∉ s.drawn → L g
  cached : ∀ g q e, L g → s.cached (n, g, q) = some e → k ≤ e.version
  pending : ∀ r g e, L g → (s.readers r).pending = some (n, g, e) → k ≤ e.version

/-- A reader that goes by the generations of `L` and returns nothing older than the commit. -/
structure UpToDate (L : Token → Prop) (n : N) (k : Nat) (p : Reader N Q V) : Prop where
  gen : ∀ g, p.gen = some (n, g) → L g
  release : ∀ q g l e, p = .release n q g l (some e) → k ≤ e.version
  returned : ∀ q e, p = .returned n q e → k ≤ e.version

section
variable {s s' : State N Q D V R W} {L : Token → Prop} {n : N} {k : Nat} {r : R}
  {p : Reader N Q V}

/-! ### One reader moves -/

theorem Drawn.setReader (h : Drawn s) (hp : ∀ n g, p.gen = some (n, g) → g ∈ s.drawn) :
    Drawn (s.setReader r p) := by
  refine ⟨h.gen, h.cached, ?_⟩
  intro r' n g hg
  by_cases hr : r' = r
  · subst hr
    rw [State.setReader_self] at hg
    exact hp n g hg
  · rw [State.setReader_ne hr] at hg
    exact h.reader r' n g hg

theorem After.setReader (h : After L s n k)
    (hp : ∀ g e, p.pending = some (n, g, e) → k ≤ e.version) : After L (s.setReader r p) n k := by
  refine ⟨h.version, h.gen, h.undrawn, h.cached, ?_⟩
  intro r' g e hL hpend
  by_cases hr : r' = r
  · subst hr
    rw [State.setReader_self] at hpend
    exact hp g e hpend
  · rw [State.setReader_ne hr] at hpend
    exact h.pending r' g e hL hpend

/-! ### Redis moves -/

theorem Drawn.draw (h : Drawn s) (t : Token) : Drawn (s.draw t) :=
  ⟨fun n g hg => List.mem_cons_of_mem _ (h.gen n g hg),
    fun n g q e he => List.mem_cons_of_mem _ (h.cached n g q e he),
    fun r n g hg => List.mem_cons_of_mem _ (h.reader r n g hg)⟩

theorem After.draw (h : After L s n k) (t : Token) : After L (s.draw t) n k :=
  ⟨h.version, h.gen, fun g hg => h.undrawn g fun hmem => hg (List.mem_cons_of_mem _ hmem),
    h.cached, h.pending⟩

theorem Drawn.setLock (h : Drawn s) (key : N × Token × Q) (t : Option Token) :
    Drawn (s.setLock key t) := ⟨h.gen, h.cached, h.reader⟩

theorem After.setLock (h : After L s n k) (key : N × Token × Q) (t : Option Token) :
    After L (s.setLock key t) n k := ⟨h.version, h.gen, h.undrawn, h.cached, h.pending⟩

theorem Drawn.releaseLock (h : Drawn s) (key : N × Token × Q) (t : Option Token) :
    Drawn (s.releaseLock key t) := by
  unfold State.releaseLock
  split
  · exact h.setLock key none
  · exact h

theorem After.releaseLock (h : After L s n k) (key : N × Token × Q) (t : Option Token) :
    After L (s.releaseLock key t) n k := by
  unfold State.releaseLock
  split
  · exact h.setLock key none
  · exact h

theorem Drawn.setGen (h : Drawn s) {m : N} {g : Option Token}
    (hg : ∀ t, g = some t → t ∈ s.drawn) : Drawn (s.setGen m g) := by
  refine ⟨?_, h.cached, h.reader⟩
  intro n' t ht
  by_cases hn : n' = m
  · subst hn
    rw [State.setGen_self] at ht
    exact hg t ht
  · rw [State.setGen_ne hn] at ht
    exact h.gen n' t ht

theorem After.setGen (h : After L s n k) {m : N} {g : Option Token}
    (hg : ∀ t, m = n → g = some t → L t) : After L (s.setGen m g) n k := by
  refine ⟨h.version, ?_, h.undrawn, h.cached, h.pending⟩
  intro t ht
  by_cases hn : n = m
  · subst hn
    rw [State.setGen_self] at ht
    exact hg t rfl ht
  · rw [State.setGen_ne hn] at ht
    exact h.gen t ht

theorem Drawn.setCached (h : Drawn s) {key : N × Token × Q} {o : Option (Entry V)}
    (ho : o.isSome → key.2.1 ∈ s.drawn) : Drawn (s.setCached key o) := by
  refine ⟨h.gen, ?_, h.reader⟩
  intro n' g q e he
  by_cases hk : (n', g, q) = key
  · subst hk
    rw [State.setCached_self] at he
    exact ho (by rw [he]; rfl)
  · rw [State.setCached_ne hk] at he
    exact h.cached n' g q e he

theorem After.setCached (h : After L s n k) {key : N × Token × Q} {o : Option (Entry V)}
    (ho : ∀ e, o = some e → key.1 = n → L key.2.1 → k ≤ e.version) :
    After L (s.setCached key o) n k := by
  refine ⟨h.version, h.gen, h.undrawn, ?_, h.pending⟩
  intro g q e hL he
  by_cases hk : (n, g, q) = key
  · subst hk
    rw [State.setCached_self] at he
    exact ho e he rfl hL
  · rw [State.setCached_ne hk] at he
    exact h.cached g q e hL he

/-- The generation there is stays, and a new one is a fresh token. -/
theorem Drawn.createGen (h : Drawn s) (m : N) (t : Token) : Drawn (s.createGen m t) := by
  apply (h.draw t).setGen
  intro g hg
  obtain rfl := Option.some.inj hg
  cases hgen : s.gen m with
  | none => exact List.mem_cons_self
  | some g => exact List.mem_cons_of_mem _ (h.gen m g hgen)

theorem After.createGen (h : After L s n k) {m : N} {t : Token} (ht : t ∉ s.drawn) :
    After L (s.createGen m t) n k := by
  apply (h.draw t).setGen
  intro g hm hg
  subst hm
  obtain rfl := Option.some.inj hg
  cases hgen : s.gen m with
  | none => exact h.undrawn t ht
  | some g => exact h.gen g hgen

/-! ### One command -/

/-- A reader goes on under the generation it has. -/
theorem Drawn.keepGen (h : Drawn s) {m : N} {g : Token} (hr : (s.readers r).gen = some (m, g))
    (hp : p.gen = some (m, g)) : ∀ n g, p.gen = some (n, g) → g ∈ s.drawn := by
  intro n' g' hg
  rw [hp] at hg
  obtain ⟨rfl, rfl⟩ := Prod.mk.inj (Option.some.inj hg)
  exact h.reader r m g hr

variable {answer : N → Q → D → V}

/-- Every step keeps tokens apart that were drawn. -/
theorem Drawn.step (h : Drawn s) (hstep : Step answer s s') : Drawn s' := by
  cases hstep with
  | start r m q hr => exact h.setReader (by simp [Reader.gen])
  | fetched r m q g hr hg =>
      apply h.setReader
      intro n' g' hp
      obtain ⟨rfl, rfl⟩ : m = n' ∧ g = g' := by simpa [Reader.gen] using hp
      exact h.gen m g hg
  | noGen r m q hr hg => exact h.setReader (by simp [Reader.gen])
  | created r m q t hr ht => exact (h.createGen m t).setReader (by simp [Reader.gen])
  | refetched r m q g hr hg =>
      apply h.setReader
      intro n' g' hp
      obtain ⟨rfl, rfl⟩ : m = n' ∧ g = g' := by simpa [Reader.gen] using hp
      exact h.gen m g hg
  | evicted r m q hr hg => exact h.setReader (by simp [Reader.gen])
  | noPrefix r m q hr => exact h.setReader (by simp [Reader.gen])
  | hit r m q g e hr he => exact h.setReader (by simp [Reader.gen])
  | miss r m q g hr => exact h.setReader (h.keepGen (r := r) (by rw [hr]; rfl) rfl)
  | locked r m q g t hr hfree ht =>
      apply ((h.draw t).setLock _ _).setReader
      exact (h.draw t).keepGen (r := r) (m := m) (g := g)
        (show (s.readers r).gen = some (m, g) by rw [hr]; rfl) rfl
  | joined r m q g e hr he => exact h.setReader (by simp [Reader.gen])
  | unlocked r m q g hr => exact h.setReader (h.keepGen (r := r) (by rw [hr]; rfl) rfl)
  | loaded r m q g l hr => exact h.setReader (h.keepGen (r := r) (by rw [hr]; rfl) rfl)
  | loadedUncached r m q l hr => exact h.setReader (by simp [Reader.gen])
  | threw r m q g l hr => exact h.setReader (h.keepGen (r := r) (by rw [hr]; rfl) rfl)
  | stored r m q g l e hr =>
      have hg : g ∈ s.drawn := h.reader r m g (by rw [hr]; rfl)
      apply (h.setCached fun _ => hg).setReader
      intro n' g' hp
      obtain ⟨rfl, rfl⟩ : m = n' ∧ g = g' := by simpa [Reader.gen] using hp
      exact hg
  | notStored r m q g l e hr => exact h.setReader (h.keepGen (r := r) (by rw [hr]; rfl) rfl)
  | released r m q g l e hr => exact (h.releaseLock _ _).setReader (by simp [Reader.gen])
  | gaveUp r m q g l hr => exact (h.releaseLock _ _).setReader (by simp [Reader.gen])
  | commit w d hw => exact ⟨h.gen, h.cached, h.reader⟩
  | invalidate w m k' done t hw ht =>
      have hset := (h.draw t).setGen (m := m) (g := some t) (by
        intro t' heq
        rw [← Option.some.inj heq]
        exact List.mem_cons_self)
      exact ⟨hset.gen, hset.cached, hset.reader⟩
  | expireGen m => exact h.setGen (by simp)
  | expireValue key => exact h.setCached (by simp)
  | expireLock key => exact h.setLock key none

/-- From the invalidation on, nothing older than the commit gets under a generation of `L`. -/
theorem After.step (h : After L s n k) (hstep : Step answer s s') : After L s' n k := by
  cases hstep with
  | start r m q hr => exact h.setReader (by simp [Reader.pending])
  | fetched r m q g hr hg => exact h.setReader (by simp [Reader.pending])
  | noGen r m q hr hg => exact h.setReader (by simp [Reader.pending])
  | created r m q t hr ht => exact (h.createGen ht).setReader (by simp [Reader.pending])
  | refetched r m q g hr hg => exact h.setReader (by simp [Reader.pending])
  | evicted r m q hr hg => exact h.setReader (by simp [Reader.pending])
  | noPrefix r m q hr => exact h.setReader (by simp [Reader.pending])
  | hit r m q g e hr he => exact h.setReader (by simp [Reader.pending])
  | miss r m q g hr => exact h.setReader (by simp [Reader.pending])
  | locked r m q g t hr hfree ht =>
      exact ((h.draw t).setLock _ _).setReader (by simp [Reader.pending])
  | joined r m q g e hr he => exact h.setReader (by simp [Reader.pending])
  | unlocked r m q g hr => exact h.setReader (by simp [Reader.pending])
  | loaded r m q g l hr =>
      -- a load reads the database as it is, commit included
      apply h.setReader
      intro g' e hp
      obtain ⟨-, -, rfl⟩ : m = n ∧ g = g' ∧ (⟨s.version, answer m q s.db⟩ : Entry V) = e := by
        simpa [Reader.pending] using hp
      exact h.version
  | loadedUncached r m q l hr => exact h.setReader (by simp [Reader.pending])
  | threw r m q g l hr => exact h.setReader (by simp [Reader.pending])
  | stored r m q g l e hr =>
      apply After.setReader ?_ (by simp [Reader.pending])
      apply h.setCached
      intro e' he hm hL
      obtain rfl := Option.some.inj he
      have hm : m = n := hm
      subst hm
      exact h.pending r g e hL (by rw [hr]; rfl)
  | notStored r m q g l e hr => exact h.setReader (by simp [Reader.pending])
  | released r m q g l e hr => exact (h.releaseLock _ _).setReader (by simp [Reader.pending])
  | gaveUp r m q g l hr => exact (h.releaseLock _ _).setReader (by simp [Reader.pending])
  | commit w d hw => exact ⟨Nat.le_succ_of_le h.version, h.gen, h.undrawn, h.cached, h.pending⟩
  | invalidate w m k' done t hw ht =>
      have hset := (h.draw t).setGen (m := m) (g := some t) (by
        intro t' _ heq
        rw [← Option.some.inj heq]
        exact h.undrawn t ht)
      exact ⟨hset.version, hset.gen, hset.undrawn, hset.cached, hset.pending⟩
  | expireGen m => exact h.setGen (by simp)
  | expireValue key => exact h.setCached (by simp)
  | expireLock key => exact h.setLock key none

/-! ### A reader that starts after the invalidation -/

theorem UpToDate.idle : UpToDate L n k (.idle : Reader N Q V) :=
  ⟨by simp [Reader.gen], by simp, by simp⟩

theorem UpToDate.setReader {r' : R} (h : UpToDate L n k (s.readers r))
    (hp : r' = r → UpToDate L n k p) : UpToDate L n k ((s.setReader r' p).readers r) := by
  by_cases hr : r' = r
  · subst hr
    rw [State.setReader_self]
    exact hp rfl
  · rw [State.setReader_ne (Ne.symm hr)]
    exact h

/-- A reader that holds no entry goes on under the generation `o`, if any. -/
theorem UpToDate.of_gen (hgen : ∀ g, p.gen = some (n, g) → L g)
    (hnone : ∀ q g l e, p ≠ .release n q g l (some e)) (hnone' : ∀ q e, p ≠ .returned n q e) :
    UpToDate L n k p := by
  refine ⟨hgen, ?_, ?_⟩
  · intro q g l e hp
    exact absurd hp (hnone q g l e)
  · intro q e hp
    exact absurd hp (hnone' q e)

theorem gen_under {m : N} {g : Token} (hp : p.gen = some (m, g)) (hL : m = n → L g) :
    ∀ g', p.gen = some (n, g') → L g' := by
  intro g' hp'
  rw [hp] at hp'
  obtain ⟨hm, rfl⟩ := Prod.mk.inj (Option.some.inj hp')
  exact hL hm

/-- What a reader has stored, or failed to store, it returns. -/
theorem UpToDate.of_pending (h : After L s n k) {r' : R} {m : N} {q : Q} {g : Token}
    {l : Option Token} {e : Entry V} (hL : m = n → L g) (hr : s.readers r' = .store m q g l e) :
    UpToDate L n k (.release m q g l (some e) : Reader N Q V) := by
  refine ⟨gen_under rfl hL, ?_, by simp⟩
  · intro q' g' l' e' hp
    obtain ⟨rfl, rfl, rfl, rfl, rfl⟩ : m = n ∧ q = q' ∧ g = g' ∧ l = l' ∧ e = e' := by
      simpa using hp
    exact h.pending r' g e (hL rfl) (by rw [hr]; rfl)

/-- Every step keeps a reader up to date: what it releases or returns is no older than the commit. -/
theorem UpToDate.step (h : After L s n k) (hu : UpToDate L n k (s.readers r))
    (hstep : Step answer s s') : UpToDate L n k (s'.readers r) := by
  -- a reader that goes on under the generation it has
  have hkeep : ∀ {r' : R} {m : N} {g : Token}, r' = r → (s.readers r').gen = some (m, g) →
      m = n → L g := by
    rintro r' m g rfl hg rfl
    exact hu.gen g hg
  -- only the readers of `n` matter: each holds a generation that `L` allows, or an entry no older than `k`
  cases hstep with
  | start r' m q hr =>
      exact hu.setReader fun _ => .of_gen (by simp [Reader.gen]) (by simp) (by simp)
  | fetched r' m q g hr hg =>
      apply hu.setReader
      rintro -
      refine .of_gen (gen_under rfl ?_) (by simp) (by simp)
      rintro rfl
      exact h.gen g hg
  | noGen r' m q hr hg =>
      exact hu.setReader fun _ => .of_gen (by simp [Reader.gen]) (by simp) (by simp)
  | created r' m q t hr ht =>
      apply UpToDate.setReader (s := s.createGen m t) hu
      exact fun _ => .of_gen (by simp [Reader.gen]) (by simp) (by simp)
  | refetched r' m q g hr hg =>
      apply hu.setReader
      rintro -
      refine .of_gen (gen_under rfl ?_) (by simp) (by simp)
      rintro rfl
      exact h.gen g hg
  | evicted r' m q hr hg =>
      exact hu.setReader fun _ => .of_gen (by simp [Reader.gen]) (by simp) (by simp)
  | noPrefix r' m q hr =>
      exact hu.setReader fun _ => .of_gen (by simp [Reader.gen]) (by simp) (by simp)
  -- what a reader returns was cached under its own generation
  | hit r' m q g e hr he =>
      apply hu.setReader
      intro heq
      refine ⟨by simp [Reader.gen], by simp, ?_⟩
      intro q' e' hp
      obtain ⟨rfl, rfl, rfl⟩ : m = n ∧ q = q' ∧ e = e' := by simpa using hp
      exact h.cached g q e (hkeep (g := g) heq (by rw [hr]; rfl) rfl) he
  | miss r' m q g hr =>
      apply hu.setReader
      intro heq
      exact .of_gen (gen_under rfl (hkeep heq (by rw [hr]; rfl))) (by simp) (by simp)
  | locked r' m q g t hr hfree ht =>
      apply UpToDate.setReader (s := (s.draw t).setLock (m, g, q) (some t)) hu
      intro heq
      exact .of_gen (gen_under rfl (hkeep heq (by rw [hr]; rfl))) (by simp) (by simp)
  | joined r' m q g e hr he =>
      apply hu.setReader
      intro heq
      refine ⟨by simp [Reader.gen], by simp, ?_⟩
      intro q' e' hp
      obtain ⟨rfl, rfl, rfl⟩ : m = n ∧ q = q' ∧ e = e' := by simpa using hp
      exact h.cached g q e (hkeep (g := g) heq (by rw [hr]; rfl) rfl) he
  | unlocked r' m q g hr =>
      apply hu.setReader
      intro heq
      exact .of_gen (gen_under rfl (hkeep heq (by rw [hr]; rfl))) (by simp) (by simp)
  | loaded r' m q g l hr =>
      apply hu.setReader
      intro heq
      exact .of_gen (gen_under rfl (hkeep heq (by rw [hr]; rfl))) (by simp) (by simp)
  -- without a generation it answers what it has just read
  | loadedUncached r' m q l hr =>
      apply hu.setReader
      rintro -
      refine ⟨by simp [Reader.gen], by simp, ?_⟩
      intro q' e' hp
      obtain ⟨-, -, rfl⟩ : m = n ∧ q = q' ∧ (⟨s.version, answer m q s.db⟩ : Entry V) = e' := by
        simpa using hp
      exact h.version
  | threw r' m q g l hr =>
      apply hu.setReader
      intro heq
      exact .of_gen (gen_under rfl (hkeep heq (by rw [hr]; rfl))) (by simp) (by simp)
  | stored r' m q g l e hr =>
      apply UpToDate.setReader (s := s.setCached (m, g, q) (some e)) hu
      intro heq
      exact .of_pending h (hkeep heq (by rw [hr]; rfl)) hr
  | notStored r' m q g l e hr =>
      apply hu.setReader
      intro heq
      exact .of_pending h (hkeep heq (by rw [hr]; rfl)) hr
  -- the answer was held since it was loaded; the release only frees the lock
  | released r' m q g l e hr =>
      have hread : (s.releaseLock (m, g, q) l).readers = s.readers := by
        unfold State.releaseLock
        split <;> rfl
      apply UpToDate.setReader (s := s.releaseLock (m, g, q) l) (by rw [hread]; exact hu)
      rintro rfl
      refine ⟨by simp [Reader.gen], by simp, ?_⟩
      intro q' e' hp
      obtain ⟨rfl, rfl, rfl⟩ : m = n ∧ q = q' ∧ e = e' := by simpa using hp
      exact hu.release q g l e hr
  | gaveUp r' m q g l hr =>
      have hread : (s.releaseLock (m, g, q) l).readers = s.readers := by
        unfold State.releaseLock
        split <;> rfl
      apply UpToDate.setReader (s := s.releaseLock (m, g, q) l) (by rw [hread]; exact hu)
      exact fun _ => .of_gen (by simp [Reader.gen]) (by simp) (by simp)
  -- the others leave the readers as they are
  | commit w d hw => exact hu
  | invalidate w m k' done t hw ht => exact hu
  | expireGen m => exact hu
  | expireValue key => exact hu
  | expireLock key => exact hu

/-! ## Whole runs -/

/-- The invariant of the cache: every invalidation that is through has left its mark. -/
structure Inv (s : State N Q D V R W) : Prop where
  drawn : Drawn s
  version : ∀ w k done, s.writers w = .committed k done → k ≤ s.version
  after : ∀ w k done n, s.writers w = .committed k done → n ∈ done → ∃ L, After L s n k

theorem inv_init (d : D) : Inv (State.init d : State N Q D V R W) := by
  refine ⟨⟨?_, ?_, ?_⟩, ?_, ?_⟩ <;> simp [State.init, Reader.gen]

/-- A command that leaves the writers as they are keeps what the invalidations have left. -/
theorem Inv.of_same (h : Inv s) (hstep : Step answer s s') (hw : s'.writers = s.writers)
    (hv : s'.version = s.version) : Inv s' := by
  refine ⟨h.drawn.step hstep, ?_, ?_⟩
  · rw [hw, hv]
    exact h.version
  · rw [hw]
    intro w k done n hcommitted hn
    obtain ⟨L, hL⟩ := h.after w k done n hcommitted hn
    exact ⟨L, hL.step hstep⟩

theorem releaseLock_writers (key : N × Token × Q) (t : Option Token) :
    (s.releaseLock key t).writers = s.writers ∧ (s.releaseLock key t).version = s.version := by
  unfold State.releaseLock
  split <;> exact ⟨rfl, rfl⟩

/-- Nothing stands under a token that has just been drawn. -/
theorem Inv.invalidated (h : Inv s) {w : W} {m : N} {done : List N} {t : Token}
    (hw : s.writers w = .committed k done) (ht : t ∉ s.drawn) : After (fun g => g ∉ s.drawn)
      (((s.draw t).setGen m (some t)).setWriter w (.committed k (m :: done))) m k := by
  refine ⟨h.version w k done hw, ?_, ?_, ?_, ?_⟩
  · intro g hg
    have hg : ((s.draw t).setGen m (some t)).gen m = some g := hg
    rw [State.setGen_self] at hg
    rw [← Option.some.inj hg]
    exact ht
  · intro g hg hmem
    exact hg (List.mem_cons_of_mem _ hmem)
  · intro g q e hg he
    exact absurd (h.drawn.cached m g q e he) hg
  · intro r g e hg hp
    have hp : (s.readers r).pending = some (m, g, e) := hp
    apply absurd (h.drawn.reader r m g ?_) hg
    cases hr : s.readers r with
    | store m' q g' l e' =>
        rw [hr] at hp
        obtain ⟨rfl, rfl, -⟩ : m' = m ∧ g' = g ∧ e' = e := by simpa [Reader.pending] using hp
        rfl
    | _ =>
        rw [hr] at hp
        cases hp

/-- Every step keeps the invariant. -/
theorem Inv.step (h : Inv s) (hstep : Step answer s s') : Inv s' := by
  have hstep' := hstep
  cases hstep with
  | commit w d hw =>
      refine ⟨h.drawn.step hstep', ?_, ?_⟩
      · intro w' k done hc
        by_cases hww : w' = w
        · subst hww
          rw [State.setWriter_self] at hc
          obtain ⟨rfl, rfl⟩ : s.version + 1 = k ∧ [] = done := by simpa using hc
          exact Nat.le_refl _
        · rw [State.setWriter_ne hww] at hc
          exact Nat.le_succ_of_le (h.version w' k done hc)
      · intro w' k done n hc hn
        by_cases hww : w' = w
        · subst hww
          rw [State.setWriter_self] at hc
          obtain ⟨rfl, rfl⟩ : s.version + 1 = k ∧ [] = done := by simpa using hc
          cases hn
        · rw [State.setWriter_ne hww] at hc
          obtain ⟨L, hL⟩ := h.after w' k done n hc hn
          exact ⟨L, hL.step hstep'⟩
  | invalidate w m k₀ done₀ t hw ht =>
      refine ⟨h.drawn.step hstep', ?_, ?_⟩
      · intro w' k done hc
        by_cases hww : w' = w
        · subst hww
          rw [State.setWriter_self] at hc
          obtain ⟨rfl, rfl⟩ : k₀ = k ∧ m :: done₀ = done := by simpa using hc
          exact h.version w' k₀ done₀ hw
        · rw [State.setWriter_ne hww] at hc
          exact h.version w' k done hc
      · intro w' k done n hc hn
        by_cases hww : w' = w
        · subst hww
          rw [State.setWriter_self] at hc
          obtain ⟨rfl, rfl⟩ : k₀ = k ∧ m :: done₀ = done := by simpa using hc
          rcases List.mem_cons.mp hn with rfl | hn
          · exact ⟨fun g => g ∉ s.drawn, h.invalidated hw ht⟩
          · obtain ⟨L, hL⟩ := h.after w' k₀ done₀ n hw hn
            exact ⟨L, hL.step hstep'⟩
        · rw [State.setWriter_ne hww] at hc
          obtain ⟨L, hL⟩ := h.after w' k done n hc hn
          exact ⟨L, hL.step hstep'⟩
  | released r m q g l e hr =>
      exact h.of_same hstep' (releaseLock_writers _ _).1 (releaseLock_writers _ _).2
  | gaveUp r m q g l hr =>
      exact h.of_same hstep' (releaseLock_writers _ _).1 (releaseLock_writers _ _).2
  | _ => exact h.of_same hstep' rfl rfl

theorem Runs.inv (h : Inv s) (hr : Runs answer s s') : Inv s' := by
  induction hr with
  | refl => exact h
  | tail _ hstep ih => exact ih.step hstep

theorem Runs.upToDate (h : After L s n k) (hu : UpToDate L n k (s.readers r))
    (hr : Runs answer s s') : After L s' n k ∧ UpToDate L n k (s'.readers r) := by
  induction hr with
  | refl => exact ⟨h, hu⟩
  | tail _ hstep ih => exact ⟨ih.1.step hstep, ih.2.step ih.1 hstep⟩

/-- **The cache is coherent**: a reader that starts once an invalidation is through returns nothing
that was read before the writer's commit. -/
theorem reads_see_the_commit {d : D} {s₁ s₂ : State N Q D V R W}
    (h₁ : Runs answer (State.init d) s₁) {w : W} {done : List N}
    (hw : s₁.writers w = .committed k done) (hn : n ∈ done) (hr : s₁.readers r = .idle)
    (h₂ : Runs answer s₁ s₂) {q : Q} {e : Entry V} (he : s₂.readers r = .returned n q e) :
    k ≤ e.version := by
  obtain ⟨L, hL⟩ := (Runs.inv (inv_init d) h₁).after w k done n hw hn
  have hidle : UpToDate L n k (s₁.readers r) := by
    rw [hr]
    exact .idle
  exact (Runs.upToDate hL hidle h₂).2.returned q e he

end

/-- Redis and the database once a writer has committed and invalidated. -/
def written : State Unit Unit Nat Nat Unit Unit :=
  ((({ State.init 4 with db := 5, version := 1 }.setWriter () (.committed 1 [])).draw 0).setGen ()
    (some 0)).setWriter () (.committed 1 [()])

/-- The next reader misses, loads, stores and returns. -/
theorem reads_see_the_commit_of_one_write : ∃ (s : State Unit Unit Nat Nat Unit Unit)
    (e : Entry Nat), Runs (fun _ _ d => d) (State.init 4) written ∧
      written.writers () = .committed 1 [()] ∧ written.readers () = .idle ∧
        Runs (fun _ _ d => d) written s ∧ s.readers () = .returned () () e ∧ e.value = 5 ∧
          1 ≤ e.version := by
  have hcommit : Step (fun (_ _ : Unit) (d : Nat) => d) (State.init 4 : State _ _ _ _ Unit Unit) _ :=
    .commit () 5 rfl
  have hinvalidate : Step (fun (_ _ : Unit) (d : Nat) => d) _ written :=
    .invalidate () () 1 [] 0 rfl List.not_mem_nil
  have hstart : Step (fun (_ _ : Unit) (d : Nat) => d) written _ := .start () () () rfl
  have hfetched : Step (fun (_ _ : Unit) (d : Nat) => d) (written.setReader () (.fetch () ())) _ :=
    .fetched () () () 0 rfl rfl
  have hrun : Runs (fun (_ _ : Unit) (d : Nat) => d) written _ :=
    ((Relation.ReflTransGen.single hstart).tail hfetched).tail (Step.miss () () () 0 rfl)
  have hloaded := ((hrun.tail (Step.locked () () () 0 1 rfl rfl (by decide))).tail
    (Step.loaded () () () 0 (some 1) rfl)).tail (Step.stored () () () 0 (some 1) ⟨1, 5⟩ rfl)
  have hdone := hloaded.tail (Step.released () () () 0 (some 1) ⟨1, 5⟩ rfl)
  have hwritten := (Relation.ReflTransGen.single hcommit).tail hinvalidate
  exact ⟨_, ⟨1, 5⟩, hwritten, rfl, rfl, hdone, rfl, rfl,
    reads_see_the_commit hwritten (w := ()) rfl List.mem_cons_self (r := ()) rfl hdone rfl⟩

end TenantCache
