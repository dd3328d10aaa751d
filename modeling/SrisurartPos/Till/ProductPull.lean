import SrisurartPos.Keyset
import SrisurartPos.Table
import Mathlib.Logic.Function.Basic
import Mathlib.Logic.Relation

/-! # The pull of the product list (`syncFromServer`)

A round walks the server's list page by page and writes what it is served over the till's own rows.
Only its first page is asked for from 30 seconds below the saved cursor, and only a round that
reached an empty page saves a cursor. Writers commit between any two requests, with a stamp as old as
their transaction, and rounds may overlap: nothing makes one wait for another. -/

namespace Till

abbrev ProductId := Nat

/-- A product as the pull writes it. -/
structure ProductRow where
  partNo : String
  name : String
  price : Int
  cost : Int
  stock : Int
  /-- microseconds -/
  updatedAt : Nat
  deletedAt : Option Nat
  deriving DecidableEq, Repr

abbrev ProductTable := Table ProductId ProductRow

abbrev ProductPage := List (ProductId × ProductRow)

/-- `updatedSince` and `afterId` -/
abbrev ProductPosition := Keyset.Position ProductId Nat

/-- 30 seconds, in microseconds -/
def rewind : Nat := 30000000

def pageLimit : Nat := 100

/-! ## A round -/

/-- A round under way. -/
structure PullRound where
  startedAt : Nat
  /-- `pendingProductIds`, read once when the round starts -/
  pendingProductIds : List ProductId
  position : ProductPosition
  latestServerCursor : Option Nat
  /-- the page that the server has answered with and the till has not written yet -/
  reply : Option ProductPage
  deriving DecidableEq, Repr

/-- Where a round begins: 30 seconds below the cursor, or at the epoch. -/
def firstPosition (cursor : Option Nat) (forceFull : Bool) : ProductPosition :=
  match forceFull, cursor with
  | false, some cursor => ⟨cursor - rewind, none⟩
  | _, _               => ⟨0, none⟩

/-- `listUncachedIn` -/
def listUncachedIn (products : ProductTable) (position : ProductPosition) : ProductPage :=
  Keyset.page ProductRow.updatedAt position pageLimit products.rows

/-- What the pull writes for one served row: a product with queued work keeps its own stock. -/
def PullRound.companion (r : PullRound) (cache : ProductTable) (e : ProductId × ProductRow) :
    ProductRow :=
  if e.1 ∈ r.pendingProductIds then
    match cache.get e.1 with
    | some row => { e.2 with stock := row.stock }
    | none     => e.2
  else e.2

/-- The rows of the till after a page: the companions are all made before the batch writes them. -/
def PullRound.write (r : PullRound) (cache : ProductTable) (page : ProductPage) : ProductTable :=
  page.foldl (fun t e => t.upsert e.1 (r.companion cache e)) cache

/-- The round after a page: the position and the cursor follow its last row. -/
def PullRound.advance (r : PullRound) (page : ProductPage) : PullRound :=
  match Keyset.next ProductRow.updatedAt page with
  | some position =>
      { r with position, latestServerCursor := some position.since, reply := none }
  | none => { r with reply := none }

/-! ## Server and till -/

/-- The server's products, the till's copy of them and the rounds under way. `T` names the rounds. -/
structure Pull (T : Type) where
  now : Nat
  products : ProductTable
  cache : ProductTable
  cursor : Option Nat
  rounds : T → Option PullRound

/-- What the deployment bounds, in microseconds. -/
structure Limits where
  /-- a transaction commits at most this long after it began -/
  ceiling : Nat
  /-- a round writes and saves at most this long after it began -/
  roundTime : Nat

variable {T : Type} [DecidableEq T]

namespace Pull

def setRound (S : Pull T) (i : T) (r : Option PullRound) : Pull T :=
  { S with rounds := Function.update S.rounds i r }

def commit (S : Pull T) (writes : ProductPage) : Pull T :=
  { S with products := writes.foldl (fun t e => t.upsert e.1 e.2) S.products }

def start (S : Pull T) (i : T) (forceFull : Bool) (pendingProductIds : List ProductId) : Pull T :=
  S.setRound i (some ⟨S.now, pendingProductIds, firstPosition S.cursor forceFull, none, none⟩)

def serve (S : Pull T) (i : T) (r : PullRound) : Pull T :=
  S.setRound i (some { r with reply := some (listUncachedIn S.products r.position) })

def receive (S : Pull T) (i : T) (r : PullRound) (page : ProductPage) : Pull T :=
  { S.setRound i (some (r.advance page)) with cache := r.write S.cache page }

/-- An empty page ends the round, which saves the last key it was served, if it was served one. -/
def finish (S : Pull T) (i : T) (r : PullRound) : Pull T :=
  { S.setRound i none with cursor := r.latestServerCursor.or S.cursor }

/-- A reset of the cache (`cacheGeneration`) voids the replies of the rounds under way. -/
def reset (S : Pull T) : Pull T :=
  { S with cache := Table.empty, cursor := none, rounds := fun _ => none }

end Pull

/-- What the server, a writer, a round and the till's own work can do next. A product that queued
work protects is `held`: only such a product is in a round's `pendingProductIds`, and only the row of
such a product is changed by the till itself. -/
inductive Pull.Step (lim : Limits) (held : ProductId → Prop) : Pull T → Pull T → Prop where
  | tick (S : Pull T) {now : Nat} (hnow : S.now ≤ now) : Step lim held S { S with now := now }
  /-- a writer's transaction becomes visible; its rows carry a time since it began -/
  | commit (S : Pull T) {writes : ProductPage}
      (hw : ∀ e ∈ writes, 0 < e.2.updatedAt ∧ e.2.updatedAt ≤ S.now ∧
        S.now ≤ e.2.updatedAt + lim.ceiling) :
      Step lim held S (S.commit writes)
  | start (S : Pull T) {i : T} (forceFull : Bool) {pendingProductIds : List ProductId}
      (hi : S.rounds i = none) (hheld : ∀ p ∈ pendingProductIds, held p) :
      Step lim held S (S.start i forceFull pendingProductIds)
  | serve (S : Pull T) {i : T} {r : PullRound} (hi : S.rounds i = some r) (hr : r.reply = none) :
      Step lim held S (S.serve i r)
  | receive (S : Pull T) {i : T} {r : PullRound} {page : ProductPage} (hi : S.rounds i = some r)
      (hr : r.reply = some page) (hpage : page ≠ []) (htime : S.now ≤ r.startedAt + lim.roundTime) :
      Step lim held S (S.receive i r page)
  | finish (S : Pull T) {i : T} {r : PullRound} (hi : S.rounds i = some r) (hr : r.reply = some [])
      (htime : S.now ≤ r.startedAt + lim.roundTime) : Step lim held S (S.finish i r)
  /-- a request failed, or the till was restarted: the round saves nothing -/
  | abort (S : Pull T) (i : T) : Step lim held S (S.setRound i none)
  | work (S : Pull T) {p : ProductId} (row : ProductRow) (hp : held p) :
      Step lim held S { S with cache := S.cache.upsert p row }
  | reset (S : Pull T) : Step lim held S S.reset

/-- Before the first pull: some products on the server, none on the till. -/
def Pull.fresh (T : Type) (now : Nat) (products : ProductTable) : Pull T :=
  ⟨now, products, Table.empty, none, fun _ => none⟩

/-- The states that runs reach from a fresh till. -/
inductive Pull.Reachable (lim : Limits) (held : ProductId → Prop) : Pull T → Prop where
  | fresh {now : Nat} {products : ProductTable}
      (hp : ∀ p row, products.get p = some row → 0 < row.updatedAt ∧ row.updatedAt ≤ now) :
      Reachable lim held (Pull.fresh T now products)
  | step {S S' : Pull T} : Reachable lim held S → Pull.Step lim held S S' →
      Reachable lim held S'

/-- A step in which no writer commits. -/
def Pull.Quiet (lim : Limits) (held : ProductId → Prop) (S S' : Pull T) : Prop :=
  Pull.Step lim held S S' ∧ S'.products = S.products

def Pull.Idle (S : Pull T) : Prop := ∀ i, S.rounds i = none

/-! ## Pages -/

theorem mem_listUncachedIn {products : ProductTable} {position : ProductPosition}
    {e : ProductId × ProductRow} (he : e ∈ listUncachedIn products position) :
    products.get e.1 = some e.2 :=
  products.mem_rows.mp (Keyset.mem_page he).1

/-- A page leaves a product's row alone, or writes one of the rows that it holds of it. -/
theorem PullRound.get_write (r : PullRound) {p : ProductId} (hp : p ∉ r.pendingProductIds)
    (cache : ProductTable) (page : ProductPage) :
    ((r.write cache page).get p = cache.get p ∧ ∀ row, (p, row) ∉ page) ∨
      ∃ row, (p, row) ∈ page ∧ (r.write cache page).get p = some row := by
  rcases Table.get_foldl_upsert page Prod.fst (r.companion cache) cache p with
    ⟨hget, hno⟩ | ⟨e, he, rfl, hget⟩
  · exact Or.inl ⟨hget, fun row hrow => hno _ hrow rfl⟩
  · have hrow : r.companion cache e = e.2 := by rw [PullRound.companion, if_neg hp]
    exact Or.inr ⟨e.2, he, hget.trans (congrArg some hrow)⟩

/-- A commit leaves a product's row alone, or writes one of its rows. -/
theorem Pull.get_commit {T : Type} (S : Pull T) (writes : ProductPage) (p : ProductId) :
    (S.commit writes).products.get p = S.products.get p ∨
      ∃ row, (p, row) ∈ writes ∧ (S.commit writes).products.get p = some row := by
  rcases Table.get_foldl_upsert writes Prod.fst Prod.snd S.products p with
    ⟨hget, -⟩ | ⟨e, he, rfl, hget⟩
  · exact Or.inl hget
  · exact Or.inr ⟨e.2, he, hget⟩

theorem PullRound.advance_of_ne_nil (r : PullRound) {page : ProductPage} (hpage : page ≠ []) :
    ∃ e ∈ page, Keyset.next ProductRow.updatedAt page = some ⟨e.2.updatedAt, some e.1⟩ ∧
      r.advance page = { r with
        position := ⟨e.2.updatedAt, some e.1⟩
        latestServerCursor := some e.2.updatedAt
        reply := none } := by
  have hnext : Keyset.next ProductRow.updatedAt page =
      some ⟨(page.getLast hpage).2.updatedAt, some (page.getLast hpage).1⟩ := by
    rw [Keyset.next, List.getLast?_eq_some_getLast hpage]
    rfl
  exact ⟨_, List.getLast_mem hpage, hnext, by rw [PullRound.advance, hnext]⟩

/-! ## What every round satisfies -/

namespace Pull

variable {T : Type} [DecidableEq T]

def AllRounds (P : PullRound → Prop) (S : Pull T) : Prop := ∀ i r, S.rounds i = some r → P r

theorem AllRounds.setRound {P : PullRound → Prop} {S : Pull T} (h : S.AllRounds P) (i : T)
    {r : Option PullRound} (hr : ∀ r', r = some r' → P r') : (S.setRound i r).AllRounds P := by
  intro j r' hj
  by_cases hij : j = i
  · subst hij
    exact hr r' (by simpa [Pull.setRound] using hj)
  · exact h j r' (by simpa [Pull.setRound, hij] using hj)

theorem AllRounds.end {P : PullRound → Prop} {S : Pull T} (h : S.AllRounds P) (i : T) :
    (S.setRound i none).AllRounds P :=
  h.setRound i (fun _ => by simp)

omit [DecidableEq T] in
theorem AllRounds.mono {P Q : PullRound → Prop} {S : Pull T} (h : S.AllRounds P)
    (hPQ : ∀ r, P r → Q r) : S.AllRounds Q :=
  fun i r hi => hPQ r (h i r hi)

omit [DecidableEq T] in
theorem Idle.all {S : Pull T} (h : S.Idle) (P : PullRound → Prop) : S.AllRounds P := by
  intro i r hi
  rw [h i] at hi
  cases hi

end Pull

/-- The times of a round: no later than now, and a cursor of its own no later than its last write. -/
structure PullRound.Timely (lim : Limits) (now : Nat) (r : PullRound) : Prop where
  startedAt : r.startedAt ≤ now
  latest : ∀ c, r.latestServerCursor = some c → c ≤ now ∧ c ≤ r.startedAt + lim.roundTime
  reply : ∀ page, r.reply = some page → ∀ e ∈ page, e.2.updatedAt ≤ now

theorem PullRound.Timely.mono {lim : Limits} {now now' : Nat} {r : PullRound}
    (h : r.Timely lim now) (hnow : now ≤ now') : r.Timely lim now' where
  startedAt := h.startedAt.trans hnow
  latest c hc := ⟨(h.latest c hc).1.trans hnow, (h.latest c hc).2⟩
  reply page hpage e he := (h.reply page hpage e he).trans hnow

/-- No stamp is in the future. -/
structure Pull.Timely {T : Type} (lim : Limits) (S : Pull T) : Prop where
  products : ∀ p row, S.products.get p = some row → 0 < row.updatedAt ∧ row.updatedAt ≤ S.now
  cursor : ∀ c, S.cursor = some c → c ≤ S.now
  rounds : S.AllRounds fun r => r.Timely lim S.now

omit [DecidableEq T] in
theorem Pull.fresh_timely {lim : Limits} {now : Nat} {products : ProductTable}
    (hp : ∀ p row, products.get p = some row → 0 < row.updatedAt ∧ row.updatedAt ≤ now) :
    (Pull.fresh T now products).Timely lim where
  products := hp
  cursor c hc := by cases hc
  rounds i r hi := by cases hi

/-- Every step keeps the rounds and the transactions within their time. -/
theorem Pull.Timely.step {lim : Limits} {held : ProductId → Prop} {S S' : Pull T}
    (h : S.Timely lim) (hstep : Pull.Step lim held S S') : S'.Timely lim := by
  cases hstep with
  | tick hnow =>
      exact ⟨fun p row hp => ⟨(h.products p row hp).1, (h.products p row hp).2.trans hnow⟩,
        fun c hc => (h.cursor c hc).trans hnow, h.rounds.mono fun r hr => hr.mono hnow⟩
  | commit hw =>
      rename_i writes
      refine ⟨fun p row hp => ?_, h.cursor, h.rounds⟩
      rcases S.get_commit writes p with heq | ⟨row', hmem, heq⟩
      · exact h.products p row (heq ▸ hp)
      · obtain rfl : row' = row := by simpa using heq.symm.trans hp
        exact ⟨(hw _ hmem).1, (hw _ hmem).2.1⟩
  | start forceFull hi hheld =>
      refine ⟨h.products, h.cursor, h.rounds.setRound _ fun r hr => ?_⟩
      cases hr
      exact ⟨le_rfl, fun c hc => (by cases hc), fun page hpage => (by cases hpage)⟩
  | serve hi hr =>
      rename_i i r
      refine ⟨h.products, h.cursor, h.rounds.setRound _ fun r' hr' => ?_⟩
      cases hr'
      refine ⟨(h.rounds i r hi).startedAt, (h.rounds i r hi).latest, fun page hpage e he => ?_⟩
      cases hpage
      exact (h.products _ _ (mem_listUncachedIn he)).2
  | receive hi hr hpage htime =>
      rename_i i r page
      obtain ⟨e, he, -, hadv⟩ := r.advance_of_ne_nil hpage
      refine ⟨h.products, h.cursor, h.rounds.setRound _ fun r' hr' => ?_⟩
      cases hr'
      rw [hadv]
      -- the new cursor is a stamp of the page, and the page is written in time
      have hstamp : e.2.updatedAt ≤ S.now := (h.rounds i r hi).reply page hr e he
      refine ⟨(h.rounds i r hi).startedAt, fun c hc => ?_, fun page hpage => by cases hpage⟩
      cases hc
      exact ⟨hstamp, hstamp.trans htime⟩
  | finish hi hr htime =>
      rename_i i r
      refine ⟨h.products, fun c hc => ?_, h.rounds.end i⟩
      rcases Option.or_eq_some_iff.mp hc with hc | ⟨-, hc⟩
      · exact ((h.rounds i r hi).latest c hc).1
      · exact h.cursor c hc
  | abort i => exact ⟨h.products, h.cursor, h.rounds.end i⟩
  | work row hp => exact ⟨h.products, h.cursor, h.rounds⟩
  | reset => exact ⟨h.products, fun c hc => (by cases hc), fun i r hi => (by cases hi)⟩

/-! ## One version of a product -/

/-- The round will still be given the version `v` of `p`: its page holds it, or it is above where
the walk goes on. -/
def PullRound.Meets (p : ProductId) (v : ProductRow) (r : PullRound) : Prop :=
  match r.reply with
  | none      => r.position.Below v.updatedAt p
  | some page => (p, v) ∈ page ∨
      ∃ q, Keyset.next ProductRow.updatedAt page = some q ∧ q.Below v.updatedAt p

/-- Every row of `p` on the round's page is `v`, or `exempt` holds. -/
def PullRound.Brings (p : ProductId) (v : ProductRow) (exempt : Prop) (r : PullRound) : Prop :=
  ∀ page, r.reply = some page → ∀ row, (p, row) ∈ page → row = v ∨ exempt

/-- The till has the version `v` of `p`, and no page that a round can still write has another. -/
structure Pull.Settled {T : Type} (lim : Limits) (p : ProductId) (v : ProductRow) (S : Pull T) :
    Prop where
  cache : S.cache.get p = some v
  rounds : S.AllRounds fun r => r.Brings p v (r.startedAt + lim.roundTime < S.now)

/-- The cursor is low enough for the next round to ask for `v`, and every round that began at `late`
or after it will be given `v`. -/
structure Pull.Awaited {T : Type} (p : ProductId) (v : ProductRow) (late : Nat) (S : Pull T) :
    Prop where
  cursor : ∀ c, S.cursor = some c → c < v.updatedAt + rewind
  rounds : S.AllRounds fun r => r.Meets p v ∨ r.startedAt < late

/-- The server has the version `v` of `p`; only rounds from before `stale` hold another one; and the
till has `v` or will be given it. -/
structure Pull.Tracked {T : Type} (lim : Limits) (p : ProductId) (v : ProductRow) (stale late : Nat)
    (S : Pull T) : Prop where
  products : S.products.get p = some v
  pos : 0 < v.updatedAt
  rounds : S.AllRounds fun r => r.Brings p v (r.startedAt < stale)
  found : S.Settled lim p v ∨ S.Awaited p v late

/-- The two bounds of `Tracked`: `late` leaves the rounds from before `stale` the time to end, and the
cursor that a round from before `late` saves is below the rewind. -/
structure Lateness (lim : Limits) (v : ProductRow) (stale late : Nat) : Prop where
  stale : stale = 0 ∨ stale + lim.roundTime ≤ late
  late : late = 0 ∨ late + lim.roundTime ≤ v.updatedAt + rewind

theorem PullRound.Brings.mono {p : ProductId} {v : ProductRow} {P Q : Prop} {r : PullRound}
    (h : r.Brings p v P) (hPQ : P → Q) : r.Brings p v Q :=
  fun page hpage row hrow => (h page hpage row hrow).imp_right hPQ

theorem PullRound.brings_of_none {p : ProductId} {v : ProductRow} {P : Prop} {r : PullRound}
    (hr : r.reply = none) : r.Brings p v P := by
  intro page hpage
  rw [hr] at hpage
  cases hpage

/-- The page that the server answers with holds its own version of a product. -/
theorem PullRound.brings_served {p : ProductId} {v : ProductRow} {P : Prop}
    {products : ProductTable} (hp : products.get p = some v) (r : PullRound) :
    PullRound.Brings p v P { r with reply := some (listUncachedIn products r.position) } := by
  intro page hpage row hrow
  cases hpage
  have hget : products.get p = some row := mem_listUncachedIn hrow
  exact Or.inl (Option.some.inj (hget.symm.trans hp))

theorem PullRound.Meets.served {p : ProductId} {v : ProductRow} {products : ProductTable}
    (hp : products.get p = some v) {r : PullRound} (hr : r.reply = none) (h : r.Meets p v) :
    PullRound.Meets p v { r with reply := some (listUncachedIn products r.position) } := by
  rw [PullRound.Meets, hr] at h
  exact Keyset.served_or_ahead (by decide) products.nodup (products.mem_rows.mpr hp) h

/-- A round that is given `v` on the page it has, or that goes on below it. -/
theorem PullRound.Meets.received {p : ProductId} {v : ProductRow} {r : PullRound}
    {page : ProductPage} (hr : r.reply = some page) (hpage : page ≠ []) (h : r.Meets p v) :
    (p, v) ∈ page ∨ (r.advance page).Meets p v := by
  obtain ⟨e, -, hnext, hadv⟩ := r.advance_of_ne_nil hpage
  rw [PullRound.Meets, hr] at h
  rcases h with hmem | ⟨q, hq, hbelow⟩
  · exact Or.inl hmem
  · rw [hnext] at hq
    cases hq
    rw [hadv]
    exact Or.inr hbelow

/-- An empty page ends no round that was still to be given `v`. -/
theorem PullRound.not_meets_of_nil {p : ProductId} {v : ProductRow} {r : PullRound}
    (hr : r.reply = some []) : ¬ r.Meets p v := by
  rw [PullRound.Meets, hr]
  rintro (h | ⟨q, hq, -⟩)
  · cases h
  · cases hq

theorem PullRound.reply_advance (r : PullRound) {page : ProductPage} (hpage : page ≠ []) :
    (r.advance page).reply = none := by
  obtain ⟨e, -, -, hadv⟩ := r.advance_of_ne_nil hpage
  rw [hadv]

theorem PullRound.startedAt_advance (r : PullRound) {page : ProductPage} (hpage : page ≠ []) :
    (r.advance page).startedAt = r.startedAt := by
  obtain ⟨e, -, -, hadv⟩ := r.advance_of_ne_nil hpage
  rw [hadv]

/-- A cursor below the rewind lets the next round begin below the version. -/
theorem firstPosition_below {p : ProductId} {v : ProductRow} (hv : 0 < v.updatedAt)
    {cursor : Option Nat} (hcursor : ∀ c, cursor = some c → c < v.updatedAt + rewind)
    (forceFull : Bool) : (firstPosition cursor forceFull).Below v.updatedAt p := by
  apply Keyset.Position.below_of_lt
  unfold firstPosition
  split
  · rename_i c
    have := hcursor c rfl
    show c - rewind < v.updatedAt
    omega
  · exact hv

section Tracked

variable {lim : Limits} {p : ProductId} {v : ProductRow} {stale late : Nat}

/-- A page that is written in time settles the version, unless an older page can still overwrite
it; then the round began before `late`. -/
theorem Pull.Tracked.receive {S : Pull T} (h : S.Tracked lim p v stale late)
    (hlate : Lateness lim v stale late) {i : T} {r : PullRound} {page : ProductPage}
    (hi : S.rounds i = some r) (hr : r.reply = some page) (hpage : page ≠ [])
    (htime : S.now ≤ r.startedAt + lim.roundTime) (hstart : r.startedAt ≤ S.now)
    (hp : p ∉ r.pendingProductIds) : (S.receive i r page).Tracked lim p v stale late := by
  have hnone : (r.advance page).reply = none := r.reply_advance hpage
  have hbrings : ∀ r', some (r.advance page) = some r' → ∀ P, r'.Brings p v P := by
    intro r' hr' P
    cases hr'
    exact PullRound.brings_of_none hnone
  refine ⟨h.products, h.pos, h.rounds.setRound i fun r' hr' => hbrings r' hr' _, ?_⟩
  have hget := r.get_write hp S.cache page
  rcases h.found with hset | hawait
  · -- what a settled product is written with is the version itself
    refine Or.inl ⟨?_, hset.rounds.setRound i fun r' hr' => hbrings r' hr' _⟩
    rcases hget with ⟨hsame, -⟩ | ⟨row, hrow, hnew⟩
    · exact hsame.trans hset.cache
    · rcases hset.rounds i r hi page hr row hrow with rfl | hover
      · exact hnew
      · omega
  · by_cases hahead : (r.advance page).Meets p v ∨ (r.advance page).startedAt < late
    · refine Or.inr ⟨hawait.cursor, hawait.rounds.setRound i fun r' hr' => ?_⟩
      cases hr'
      exact hahead
    · rw [r.startedAt_advance hpage] at hahead
      have hmem : (p, v) ∈ page := by
        rcases hawait.rounds i r hi with hmeets | hearly
        · exact (hmeets.received hr hpage).resolve_right fun h => hahead (Or.inl h)
        · exact absurd (Or.inr hearly) hahead
      have hnotLate : late ≤ r.startedAt := by
        by_contra hlt
        exact hahead (Or.inr (by omega))
      have hstale : ∀ r' : PullRound, r'.startedAt < stale →
          r'.startedAt + lim.roundTime < S.now := by
        intro r' hr'
        rcases hlate.stale with h0 | hle
        · omega
        · omega
      refine Or.inl ⟨?_, fun j r' hj => ?_⟩
      · rcases hget with ⟨-, hno⟩ | ⟨row, hrow, hnew⟩
        · exact absurd hmem (hno v)
        · rcases h.rounds i r hi page hr row hrow with rfl | hold
          · exact hnew
          · have := hstale r hold
            omega
      · exact (h.rounds.setRound i fun r' hr' => hbrings r' hr' _) j r' hj |>.mono (hstale r')

/-- Every step keeps the product on its way to the till: it is served, or ahead of the cursor. -/
theorem Pull.Tracked.step {held : ProductId → Prop} (hp : ¬ held p) {S S' : Pull T}
    (htimely : S.Timely lim) (hheld : S.AllRounds fun r => ∀ q ∈ r.pendingProductIds, held q)
    (h : S.Tracked lim p v stale late) (hlate : Lateness lim v stale late)
    (hstep : Pull.Step lim held S S') (hsame : S'.products.get p = S.products.get p) :
    S'.Tracked lim p v stale late := by
  cases hstep with
  -- time alone: what was late enough stays so
  | tick hnow =>
      refine ⟨h.products, h.pos, h.rounds, h.found.imp (fun hs => ⟨hs.cache, ?_⟩) fun ha => ?_⟩
      · exact hs.rounds.mono fun r hr => hr.mono fun hlt => hlt.trans_le hnow
      · exact ⟨ha.cursor, ha.rounds⟩
  | commit hw =>
      exact ⟨hsame.trans h.products, h.pos, h.rounds,
        h.found.imp (fun hs => ⟨hs.cache, hs.rounds⟩) fun ha => ⟨ha.cursor, ha.rounds⟩⟩
  -- a new round has no reply yet, and it begins below the version
  | start forceFull hi hpending =>
      rename_i i pending
      have hnew : ∀ r, some (PullRound.mk S.now pending (firstPosition S.cursor forceFull)
          none none) = some r → ∀ P, r.Brings p v P := by
        intro r hr P
        cases hr
        exact PullRound.brings_of_none rfl
      refine ⟨h.products, h.pos, h.rounds.setRound i fun r hr => hnew r hr _, ?_⟩
      rcases h.found with hs | ha
      · exact Or.inl ⟨hs.cache, hs.rounds.setRound i fun r hr => hnew r hr _⟩
      · refine Or.inr ⟨ha.cursor, ha.rounds.setRound i fun r hr => ?_⟩
        cases hr
        exact Or.inl (firstPosition_below h.pos ha.cursor forceFull)
  -- the reply has the version, or a position that is still below it
  | serve hi hr =>
      rename_i i r
      have hnew : ∀ r', some { r with reply := some (listUncachedIn S.products r.position) } =
          some r' → ∀ P, r'.Brings p v P := by
        intro r' hr' P
        cases hr'
        exact r.brings_served h.products
      refine ⟨h.products, h.pos, h.rounds.setRound i fun r' hr' => hnew r' hr' _, ?_⟩
      rcases h.found with hs | ha
      · exact Or.inl ⟨hs.cache, hs.rounds.setRound i fun r' hr' => hnew r' hr' _⟩
      · refine Or.inr ⟨ha.cursor, ha.rounds.setRound i fun r' hr' => ?_⟩
        cases hr'
        exact (ha.rounds i r hi).imp_left (PullRound.Meets.served h.products hr)
  | receive hi hr hpage htime =>
      exact h.receive hlate hi hr hpage htime (htimely.rounds _ _ hi).startedAt
        fun hmem => hp (hheld _ _ hi p hmem)
  -- the cursor moves to where the round came
  | finish hi hr htime =>
      rename_i i r
      refine ⟨h.products, h.pos, h.rounds.end i, ?_⟩
      rcases h.found with hs | ha
      · exact Or.inl ⟨hs.cache, hs.rounds.end i⟩
      · refine Or.inr ⟨fun c hc => ?_, ha.rounds.end i⟩
        rcases Option.or_eq_some_iff.mp hc with hc | ⟨-, hc⟩
        · -- the round missed the version, so it began early enough for its cursor to be low
          have hearly : r.startedAt < late :=
            (ha.rounds i r hi).resolve_left (PullRound.not_meets_of_nil hr)
          have := ((htimely.rounds i r hi).latest c hc).2
          rcases hlate.late with h0 | hle <;> omega
        · exact ha.cursor c hc
  | abort i =>
      exact ⟨h.products, h.pos, h.rounds.end i, h.found.imp
        (fun hs => ⟨hs.cache, hs.rounds.end i⟩) fun ha => ⟨ha.cursor, ha.rounds.end i⟩⟩
  -- a row the till itself writes is held, and this product is not
  | work row hq =>
      rename_i q
      have hne : p ≠ q := by
        rintro rfl
        exact hp hq
      refine ⟨h.products, h.pos, h.rounds, h.found.imp (fun hs => ⟨?_, hs.rounds⟩) fun ha =>
        ⟨ha.cursor, ha.rounds⟩⟩
      show (S.cache.upsert q row).get p = some v
      rw [Table.get_upsert, if_neg hne]
      exact hs.cache
  -- no cursor and no round: the next one begins at the start
  | reset =>
      exact ⟨h.products, h.pos, fun i r hi => (by cases hi), Or.inr
        ⟨fun c hc => (by cases hc), fun i r hi => (by cases hi)⟩⟩

end Tracked

/-! ## Runs -/

/-- A round withholds stock only of what queued work protects. -/
theorem Pull.Step.held_rounds {lim : Limits} {held : ProductId → Prop} {S S' : Pull T}
    (h : S.AllRounds fun r => ∀ q ∈ r.pendingProductIds, held q)
    (hstep : Pull.Step lim held S S') :
    S'.AllRounds fun r => ∀ q ∈ r.pendingProductIds, held q := by
  cases hstep with
  | tick | commit | work => exact h
  | start forceFull hi hheld =>
      refine h.setRound _ fun r hr => ?_
      cases hr
      exact hheld
  | serve hi hr =>
      refine h.setRound _ fun r' hr' => ?_
      cases hr'
      exact fun q hq => h _ _ hi q hq
  | receive hi hr hpage htime =>
      rename_i i r page
      refine h.setRound _ fun r' hr' => ?_
      cases hr'
      obtain ⟨e, -, -, hadv⟩ := r.advance_of_ne_nil hpage
      rw [hadv]
      exact fun q hq => h _ _ hi q hq
  | finish | abort => exact h.end _
  | reset => exact fun i r hi => (by cases hi)

/-- The till and the replies to it hold only products that the server has. -/
structure Pull.Known {T : Type} (p : ProductId) (S : Pull T) : Prop where
  cache : (S.cache.get p).isSome → (S.products.get p).isSome
  rounds : S.AllRounds fun r => ∀ page, r.reply = some page → ∀ row, (p, row) ∈ page →
    (S.products.get p).isSome

/-- No step takes a product off the server: a deleted one keeps its row. -/
theorem Pull.Step.products_isSome {lim : Limits} {held : ProductId → Prop} {S S' : Pull T}
    (hstep : Pull.Step lim held S S') {p : ProductId} (hp : (S.products.get p).isSome) :
    (S'.products.get p).isSome := by
  cases hstep with
  | commit hw =>
      rename_i writes
      rcases S.get_commit writes p with heq | ⟨row, -, heq⟩
      · rw [heq]
        exact hp
      · rw [heq]
        rfl
  | _ => exact hp

/-- A product that the till has stays with it. -/
theorem Pull.Known.step {lim : Limits} {held : ProductId → Prop} {p : ProductId} (hp : ¬ held p)
    {S S' : Pull T} (hheld : S.AllRounds fun r => ∀ q ∈ r.pendingProductIds, held q)
    (h : S.Known p) (hstep : Pull.Step lim held S S') : S'.Known p := by
  have hkeep := fun hs => hstep.products_isSome (p := p) hs
  cases hstep with
  | tick => exact ⟨h.cache, h.rounds⟩
  | commit hw =>
      exact ⟨fun hs => hkeep (h.cache hs),
        h.rounds.mono fun r hr page hpage row hrow => hkeep (hr page hpage row hrow)⟩
  | start forceFull hi hpending =>
      refine ⟨h.cache, h.rounds.setRound _ fun r hr => ?_⟩
      cases hr
      intro page hpage
      cases hpage
  | serve hi hr =>
      refine ⟨h.cache, h.rounds.setRound _ fun r' hr' => ?_⟩
      cases hr'
      intro page hpage row hrow
      cases hpage
      have hget := mem_listUncachedIn hrow
      exact Option.isSome_iff_exists.mpr ⟨row, hget⟩
  | receive hi hr hpage htime =>
      rename_i i r page
      refine ⟨fun hs => ?_, h.rounds.setRound _ fun r' hr' => ?_⟩
      · rcases r.get_write (fun hmem => hp (hheld i r hi p hmem)) S.cache page with
          ⟨hsame, -⟩ | ⟨row, hrow, -⟩
        · exact h.cache (hsame ▸ hs)
        · exact h.rounds i r hi page hr row hrow
      · cases hr'
        intro page' hpage'
        rw [r.reply_advance hpage] at hpage'
        cases hpage'
  | finish | abort => exact ⟨h.cache, h.rounds.end _⟩
  | work row hq =>
      rename_i q
      have hne : p ≠ q := by
        rintro rfl
        exact hp hq
      refine ⟨fun hs => h.cache ?_, h.rounds⟩
      have hget : (S.cache.upsert q row).get p = S.cache.get p := by
        rw [Table.get_upsert, if_neg hne]
      exact hget ▸ hs
  | reset => exact ⟨fun hs => (by cases hs), fun i r hi => (by cases hi)⟩

/-- What holds of every state of a run, seen from a product that no queued work protects. -/
structure Pull.Sound {T : Type} (lim : Limits) (held : ProductId → Prop) (p : ProductId)
    (S : Pull T) : Prop where
  timely : S.Timely lim
  held_rounds : S.AllRounds fun r => ∀ q ∈ r.pendingProductIds, held q
  known : S.Known p

theorem Pull.Sound.step {lim : Limits} {held : ProductId → Prop} {p : ProductId} (hp : ¬ held p)
    {S S' : Pull T} (h : S.Sound lim held p) (hstep : Pull.Step lim held S S') :
    S'.Sound lim held p :=
  ⟨h.timely.step hstep, hstep.held_rounds h.held_rounds, h.known.step hp h.held_rounds hstep⟩

omit [DecidableEq T] in
/-- A version is tracked from its commit on: every round under way may hold an older one, and no
round that began later can miss it and still save a cursor that passes it. -/
theorem Pull.Tracked.of_commit {lim : Limits} (hlim : lim.ceiling + 2 * lim.roundTime < rewind)
    {S : Pull T} (h : S.Timely lim) {writes : ProductPage}
    (hw : ∀ e ∈ writes, 0 < e.2.updatedAt ∧ e.2.updatedAt ≤ S.now ∧
      S.now ≤ e.2.updatedAt + lim.ceiling) {p : ProductId} {v : ProductRow}
    (hv : (p, v) ∈ writes) (hget : (S.commit writes).products.get p = some v) :
    ∃ stale late, Lateness lim v stale late ∧ (S.commit writes).Tracked lim p v stale late := by
  obtain ⟨hpos, hle, hceil⟩ : 0 < v.updatedAt ∧ v.updatedAt ≤ S.now ∧
      S.now ≤ v.updatedAt + lim.ceiling := hw _ hv
  refine ⟨S.now + 1, S.now + 1 + lim.roundTime, ⟨Or.inr le_rfl, Or.inr (by omega)⟩, hget, hpos,
    fun i r hi page hpage row hrow => Or.inr ?_, Or.inr ⟨fun c hc => ?_, fun i r hi => Or.inr ?_⟩⟩
  · exact Nat.lt_succ_of_le (h.rounds i r hi).startedAt
  · have := h.cursor c hc
    omega
  · have := (h.rounds i r hi).startedAt
    omega

/-- At every state that is reached, the server's version of a product is tracked. -/
theorem Pull.Reachable.tracked {lim : Limits} (hlim : lim.ceiling + 2 * lim.roundTime < rewind)
    {held : ProductId → Prop} {p : ProductId} (hp : ¬ held p) {S : Pull T}
    (h : Pull.Reachable lim held S) :
    S.Sound lim held p ∧ ∀ v, S.products.get p = some v →
      ∃ stale late, Lateness lim v stale late ∧ S.Tracked lim p v stale late := by
  induction h with
  | fresh hp =>
      refine ⟨⟨Pull.fresh_timely hp, fun i r hi => (by cases hi), fun hs => (by cases hs),
        fun i r hi => (by cases hi)⟩, fun v hv => ⟨0, 0, ⟨Or.inl rfl, Or.inl rfl⟩, hv,
        (hp _ _ hv).1, fun i r hi => (by cases hi), Or.inr ⟨fun c hc => (by cases hc),
        fun i r hi => (by cases hi)⟩⟩⟩
  | @step S S' hreach hstep ih =>
      obtain ⟨hsound, htracked⟩ := ih
      refine ⟨hsound.step hp hstep, fun v hv => ?_⟩
      by_cases hsame : S'.products.get p = S.products.get p
      · obtain ⟨stale, late, hlate, h⟩ := htracked v (hsame ▸ hv)
        exact ⟨stale, late, hlate,
          h.step hp hsound.timely hsound.held_rounds hlate hstep hsame⟩
      · cases hstep with
        | commit hw =>
            rename_i writes
            rcases S.get_commit writes p with heq | ⟨row, hmem, heq⟩
            · exact absurd heq hsame
            · obtain rfl : row = v := by simpa using heq.symm.trans hv
              exact Pull.Tracked.of_commit hlim hsound.timely hw hmem hv
        | _ => exact absurd rfl hsame

/-- While no writer commits, a version that no older page can overwrite stays tracked so, and a
round that ends has given it to the till. -/
theorem Pull.Quiet.tracked {lim : Limits} {held : ProductId → Prop} {p : ProductId}
    (hp : ¬ held p) {S S' : Pull T} (hquiet : Relation.ReflTransGen (Pull.Quiet lim held) S S')
    (hsound : S.Sound lim held p)
    (h : ∀ v, S.products.get p = some v → S.Tracked lim p v 0 0) :
    S'.Sound lim held p ∧ ∀ v, S'.products.get p = some v → S'.Tracked lim p v 0 0 := by
  induction hquiet with
  | refl => exact ⟨hsound, h⟩
  | tail _ hstep ih =>
      obtain ⟨hsound, h⟩ := ih
      refine ⟨hsound.step hp hstep.1, fun v hv => ?_⟩
      have hsame := congrArg (fun t => Table.get t p) hstep.2
      exact (h v (hsame.symm.trans hv)).step hp hsound.timely hsound.held_rounds
        ⟨Or.inl rfl, Or.inl rfl⟩ hstep.1 hsame

omit [DecidableEq T] in
/-- With no round under way, no older page is left. -/
theorem Pull.Tracked.of_idle {lim : Limits} {p : ProductId} {v : ProductRow} {stale late : Nat}
    {S : Pull T} (h : S.Tracked lim p v stale late) (hidle : S.Idle) :
    S.Tracked lim p v 0 0 :=
  ⟨h.products, h.pos, hidle.all _, h.found.imp_right fun ha => ⟨ha.cursor, hidle.all _⟩⟩

omit [DecidableEq T] in
/-- What a round that ends leaves on the till. -/
theorem Pull.Tracked.finish {lim : Limits} {p : ProductId} {v : ProductRow} {S : Pull T}
    (h : S.Tracked lim p v 0 0) {i : T} {r : PullRound} (hi : S.rounds i = some r)
    (hr : r.reply = some []) : S.cache.get p = some v := by
  rcases h.found with hs | ha
  · exact hs.cache
  · rcases ha.rounds i r hi with hmeets | hearly
    · exact absurd hmeets (PullRound.not_meets_of_nil hr)
    · omega

/-! ## The round after the last writer -/

/-- A run after which the writers stop and, with no earlier round under way, a round runs to its end:
it leaves on the till every product that no queued work ever protected, as the server has it. -/
def PullComplete (T : Type) [DecidableEq T] (lim : Limits) : Prop :=
  ∀ (held : ProductId → Prop) (S S' : Pull T), Pull.Reachable lim held S → S.Idle →
    Relation.ReflTransGen (Pull.Quiet lim held) S S' →
    ∀ (i : T) (r : PullRound), S'.rounds i = some r → r.reply = some [] →
      S'.now ≤ r.startedAt + lim.roundTime →
      ∀ p, ¬ held p → (S'.finish i r).cache.get p = (S'.finish i r).products.get p

/-- A keyset pull loses no update while a transaction and two rounds fit into the rewind together. -/
theorem keyset_pull_complete {lim : Limits} (hlim : lim.ceiling + 2 * lim.roundTime < rewind) :
    PullComplete T lim := by
  intro held S S' hreach hidle hquiet i r hi hr htime p hp
  obtain ⟨hsound, htracked⟩ := hreach.tracked hlim hp
  have hidleTracked : ∀ v, S.products.get p = some v → S.Tracked lim p v 0 0 := by
    intro v hv
    obtain ⟨stale, late, -, h⟩ := htracked v hv
    exact h.of_idle hidle
  obtain ⟨hsound', htracked'⟩ := Pull.Quiet.tracked hp hquiet hsound hidleTracked
  show S'.cache.get p = S'.products.get p
  cases hget : S'.products.get p with
  | some v => exact (htracked' v hget).finish hi hr
  | none =>
      cases hcache : S'.cache.get p with
      | none => rfl
      | some row =>
          have := hsound'.known.cache (by rw [hcache]; rfl)
          rw [hget] at this
          cases this

/-- What a round does next, as the loop of `syncFromServer` has it. -/
def Pull.turn (S : Pull T) (i : T) : Pull T :=
  match S.rounds i with
  | none   => S.start i false []
  | some r =>
    match r.reply with
    | none             => S.serve i r
    | some []          => S.finish i r
    | some (e :: page) => S.receive i r (e :: page)

/-- A turn of a round that is in time is a step. -/
theorem Pull.step_turn {lim : Limits} {held : ProductId → Prop} (S : Pull T) {i : T}
    (htime : ∀ r ∈ S.rounds i, S.now ≤ r.startedAt + lim.roundTime) :
    Pull.Step lim held S (S.turn i) := by
  cases hi : S.rounds i with
  | none =>
      have hturn : S.turn i = S.start i false [] := by rw [Pull.turn, hi]
      exact hturn ▸ Pull.Step.start S false hi (by simp)
  | some r =>
      cases hr : r.reply with
      | none =>
          have hturn : S.turn i = S.serve i r := by simp only [Pull.turn, hi, hr]
          exact hturn ▸ Pull.Step.serve S hi hr
      | some page =>
          cases page with
          | nil =>
              have hturn : S.turn i = S.finish i r := by simp only [Pull.turn, hi, hr]
              exact hturn ▸ Pull.Step.finish S hi hr (htime r hi)
          | cons e page =>
              have hturn : S.turn i = S.receive i r (e :: page) := by simp only [Pull.turn, hi, hr]
              exact hturn ▸ Pull.Step.receive S hi hr (by simp) (htime r hi)

/-- A round only reads the server. -/
theorem Pull.products_turn (S : Pull T) (i : T) : (S.turn i).products = S.products := by
  unfold Pull.turn
  split
  · rfl
  · split <;> rfl

def Pull.turns (S : Pull T) (i : T) : Nat → Pull T
  | 0     => S
  | n + 1 => (S.turns i n).turn i

/-- Turns of a round that is in time throughout. -/
theorem Pull.quiet_turns {lim : Limits} {held : ProductId → Prop} (S : Pull T) {i : T} (n : Nat)
    (htime : ∀ m < n, ∀ r ∈ (S.turns i m).rounds i,
      (S.turns i m).now ≤ r.startedAt + lim.roundTime) :
    Relation.ReflTransGen (Pull.Quiet lim held) S (S.turns i n) := by
  induction n with
  | zero => exact Relation.ReflTransGen.refl
  | succ n ih =>
      refine (ih fun m hm => htime m (by omega)).tail ⟨?_, Pull.products_turn _ i⟩
      exact Pull.step_turn _ (htime n (by omega))

theorem Pull.Reachable.quiet {lim : Limits} {held : ProductId → Prop} {S S' : Pull T}
    (h : Pull.Reachable lim held S) (hquiet : Relation.ReflTransGen (Pull.Quiet lim held) S S') :
    Pull.Reachable lim held S' := by
  induction hquiet with
  | refl => exact h
  | tail _ hstep ih => exact ih.step hstep.1

private def seconds (n : Nat) : Nat := n * 1000000

private def belt (updatedAt : Nat) : ProductRow := ⟨"A-1", "belt", 250, 180, 4, updatedAt, none⟩

/-- A shop with one product and a till that has never pulled. -/
private def oneProduct : Pull Unit :=
  Pull.fresh Unit (seconds 100) (Table.empty.upsert 1 (belt (seconds 90)))

private theorem oneProduct_reachable (lim : Limits) (held : ProductId → Prop) :
    Pull.Reachable lim held oneProduct := by
  refine Pull.Reachable.fresh fun p row hp => ?_
  rw [Table.get_upsert] at hp
  split at hp
  · cases hp
    decide
  · cases hp

/-- After its first round a row of second 86 is committed, behind the cursor that the round has saved. -/
private def laterCommit : Pull Unit :=
  { oneProduct.turns () 5 with now := seconds 110 }.commit [(2, belt (seconds 86))]

/-- The round after that, from the cursor less the rewind: its page, and the empty page that ends it. -/
theorem keyset_pull_complete_of_secondRound :
    ∃ r, ((laterCommit.turns () 4).finish () r).cache.get 1 = some (belt (seconds 90)) ∧
      ((laterCommit.turns () 4).finish () r).cache.get 2 = some (belt (seconds 86)) := by
  let lim : Limits := ⟨seconds 25, seconds 2⟩
  have hreach : Pull.Reachable lim (fun _ => False) laterCommit := by
    have hfirst : Pull.Reachable lim (fun _ => False) (oneProduct.turns () 5) :=
      (oneProduct_reachable _ _).quiet (Pull.quiet_turns _ 5 (by decide +kernel))
    exact (hfirst.step (Pull.Step.tick _ (show _ ≤ seconds 110 by decide +kernel))).step
      (Pull.Step.commit _ (show ∀ e ∈ [(2, belt (seconds 86))], _ by decide +kernel))
  have hidle : laterCommit.Idle := by
    intro i
    cases i
    decide +kernel
  have hrun : Relation.ReflTransGen (Pull.Quiet lim (fun _ => False)) laterCommit
      (laterCommit.turns () 4) := Pull.quiet_turns _ 4 (by decide +kernel)
  obtain ⟨r, hi, hr, htime⟩ : ∃ r, (laterCommit.turns () 4).rounds () = some r ∧
      r.reply = some [] ∧ (laterCommit.turns () 4).now ≤ r.startedAt + seconds 2 := by
    refine ⟨⟨seconds 110, [], ⟨seconds 90, some 1⟩, some (seconds 90), some []⟩, ?_⟩
    decide +kernel
  have hcomplete := keyset_pull_complete (by decide) _ _ _ hreach hidle hrun () r hi hr htime
  refine ⟨r, (hcomplete 1 id).trans ?_, (hcomplete 2 id).trans ?_⟩
  · show (laterCommit.turns () 4).products.get 1 = _
    decide +kernel
  · show (laterCommit.turns () 4).products.get 2 = _
    decide +kernel

/-- A round that has read past second 90 when a row of second 86 is committed, and that goes on to a
row of second 120. -/
private def slowRound : Pull Unit :=
  let first := oneProduct.turns () 3
  let late := { first with now := seconds 110 }.commit [(2, belt (seconds 86))]
  let last := { late with now := seconds 120 }.commit [(3, belt (seconds 120))]
  last.turns () 4

/-- Without a bound on a round's time the pull loses an update, also when no two rounds overlap: a row
that was committed behind the walk is below the rewind of the cursor that the walk goes on to save. -/
theorem keyset_pull_misses_late_commit :
    ¬ ∀ roundTime, PullComplete Unit ⟨seconds 25, roundTime⟩ := by
  intro hclaim
  let lim : Limits := ⟨seconds 25, seconds 60⟩
  have hreach : Pull.Reachable lim (fun _ => False) slowRound := by
    have hfirst : Pull.Reachable lim (fun _ => False) (oneProduct.turns () 3) :=
      (oneProduct_reachable _ _).quiet (Pull.quiet_turns _ 3 (by decide +kernel))
    have hlate := (hfirst.step (Pull.Step.tick _ (show _ ≤ seconds 110 by decide +kernel))).step
      (Pull.Step.commit _ (show ∀ e ∈ [(2, belt (seconds 86))], _ by decide +kernel))
    have hlast := (hlate.step (Pull.Step.tick _ (show _ ≤ seconds 120 by decide +kernel))).step
      (Pull.Step.commit _ (show ∀ e ∈ [(3, belt (seconds 120))], _ by decide +kernel))
    exact hlast.quiet (Pull.quiet_turns _ 4 (by decide +kernel))
  have hrun : Relation.ReflTransGen (Pull.Quiet lim (fun _ => False)) slowRound
      (slowRound.turns () 4) := Pull.quiet_turns _ 4 (by decide +kernel)
  have hidle : slowRound.Idle := by
    intro i
    cases i
    decide +kernel
  have hlost := hclaim (seconds 60) (fun _ => False) _ _ hreach hidle hrun ()
    ⟨seconds 120, [], ⟨seconds 120, some 3⟩, some (seconds 120), some []⟩
    (by decide +kernel) rfl (by decide +kernel) 2 id
  revert hlost
  show (slowRound.turns () 4).cache.get 2 ≠ (slowRound.turns () 4).products.get 2
  decide +kernel

end Till
