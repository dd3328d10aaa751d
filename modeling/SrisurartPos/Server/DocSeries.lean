import SrisurartPos.Server.System

/-! # The series of document numbers

Transactions that number a document, interleaved with one another. Each of them issues a number or
records one its client brings, in the middle of whatever else it does: a sale, a credit note, a
quote, an order, a payment. The counter's row stays locked to the end of the transaction, so the
numbers follow the order of the commits. -/

namespace Server

open Txn

/-! ## The transactions -/

/-- What a transaction does besides numbering its document: nothing to the counters. -/
structure Errand where
  work : Prog Unit
  disciplined : ∀ H, Disciplined agree work H fun _ _ => True
  quiet : ∀ H s, wp work H s (fun _ => True) fun _ H' s' =>
    s'.docCounters = s.docCounters ∧ Covered agree H' s s'

/-- Does nothing. -/
def Errand.none : Errand where
  work := return ()
  disciplined _ := trivial
  quiet _ _ := ⟨rfl, Covered.refl _ _⟩

/-- Counts the document for its customer, as a sale does once it is written. -/
def Errand.tally (c : Option CustomerId) (f : Customer → Customer) : Errand where
  work := do
    let _ ← updateCustomer c f
    return ()
  disciplined _ := Disciplined.seq (disciplined_updateCustomer c f) fun _ _ _ _ => trivial
  quiet H s := by
    have htally : wp (updateCustomer c f) H s Expected fun _ H' s' =>
        s'.docCounters = s.docCounters ∧ Covered agree H' s s' := by
      apply wp_updateCustomer
      intro _ _ _ hcov
      exact ⟨by cases c <;> rfl, hcov⟩
    apply wp_seq (wp_mono htally (fun _ _ => trivial) fun _ _ _ h => h)
    exact fun _ _ _ h => h

/-- Where the number comes from. -/
inductive Numbering where
  | issued (env : Env)
  | recorded (docNumber : DocNo)

structure DocTx where
  deviceId : DeviceId
  docType : DocType
  numbering : Numbering
  before : Errand
  after : Errand

/-- `issue` or `recordClientDocNumber` -/
def DocTx.number (tx : DocTx) : Prog DocNo :=
  match tx.numbering with
  | .issued env  => issue env tx.deviceId tx.docType
  | .recorded no => recordClientDocNumber tx.deviceId tx.docType no

def DocTx.prog (tx : DocTx) : Prog DocNo := do
  tx.before.work
  let no ← tx.number
  tx.after.work
  return no

def DocTx.issues (tx : DocTx) : Bool :=
  match tx.numbering with
  | .issued _   => true
  | .recorded _ => false

/-! ## Their numbers -/

/-- What the counter stands at: a counter that is not there has issued nothing. -/
def Db.lastNo (db : Db) (c : DeviceId × DocType × Period) : Nat := (db.docCounters.get c).getD 0

/-- The number a transaction gave to its document, when it is of the series `c`. -/
def seqIn (c : DeviceId × DocType × Period) (e : DocTx × DocNo) : Option Nat :=
  match e.2 with
  | .formatted n =>
      if (e.1.deviceId, e.1.docType, n.period) = c then some n.seq else none
  | .other _     => none

/-- What a transaction that numbers a document does to the counters: the document's own is at least
at its number, and one behind it before a number that is issued. -/
structure Numbered (tx : DocTx) (no : DocNo) (s s' : Db) : Prop where
  series : ∃ c seq, seqIn c (tx, no) = some seq ∧ seq ≤ maxDocNo ∧
    s'.docCounters = (s.setCounter c (max (s.lastNo c) seq)).docCounters ∧
      (tx.issues = true → s.lastNo c < seq)

theorem seqIn_formatted {tx : DocTx} {n : DocNumber} {c : DeviceId × DocType × Period} {k : Nat} :
    seqIn c (tx, .formatted n) = some k ↔ (tx.deviceId, tx.docType, n.period) = c ∧ n.seq = k := by
  simp [seqIn]

/-- A document is of one series. -/
theorem seqIn_unique {e : DocTx × DocNo} {c c' : DeviceId × DocType × Period} {k k' : Nat}
    (h : seqIn c e = some k) (h' : seqIn c' e = some k') : c = c' ∧ k = k' := by
  obtain ⟨tx, no⟩ := e
  cases no with
  | other text => cases h
  | formatted n =>
      obtain ⟨hc, hk⟩ := seqIn_formatted.mp h
      obtain ⟨hc', hk'⟩ := seqIn_formatted.mp h'
      exact ⟨hc.symm.trans hc', hk.symm.trans hk'⟩

@[simp] theorem lastNo_setCounter (s : Db) (c c' : DeviceId × DocType × Period) (n : Nat) :
    (s.setCounter c n).lastNo c' = if c' = c then n else s.lastNo c' := by
  unfold Db.lastNo Db.setCounter
  rw [Table.get_upsert]
  split <;> rfl

/-- A client's number that passes is of the server's format, of the right type and in range. -/
theorem of_validateDocNumber {docType : DocType} {deviceNo : Nat} {no : DocNo} {p : Period}
    {k : Nat} (h : validateDocNumber docType deviceNo no = .ok (p, k)) :
    ∃ n, no = .formatted n ∧ n.period = p ∧ n.seq = k ∧ k ≤ maxDocNo := by
  cases no with
  | other text => cases h
  | formatted n =>
      simp only [validateDocNumber] at h
      split_ifs at h with htype hdevice hrange
      cases h
      exact ⟨n, rfl, rfl, rfl, by omega⟩

section
variable {H : Held LockKey} {s : Db} {E : ServerError → Prop}

theorem wp_deviceNo_any {d : DeviceId} {Q : Nat → Held LockKey → Db → Prop}
    (hE : E .deviceRoleForbidden) (h : ∀ n, Q n H s) : wp (deviceNo d) H s E Q := by
  apply wp_bind_glance
  intro s₀
  apply wp_bind_orFail
  · intro device _
    exact wp_bind_require (fun _ => h _) fun _ => hE
  · exact fun _ => hE

/-- **What issuing a number does.** -/
theorem wp_number {tx : DocTx} : wp tx.number H s (fun _ => True) fun no H' s' =>
    Numbered tx no s s' ∧ Covered agree H' s s' := by
  unfold DocTx.number
  cases hn : tx.numbering with
  | issued env =>
      apply (wp_bind _ _).mpr
      apply wp_deviceNo_any trivial
      intro no
      apply wp_bind_selectFor
      apply wp_bind_require
      · intro hmax
        refine ⟨⟨(tx.deviceId, tx.docType, env.period), _, ?_, hmax, ?_, ?_⟩, ?_⟩
        · exact seqIn_formatted.mpr ⟨rfl, rfl⟩
        · have hlast : max (s.lastNo (tx.deviceId, tx.docType, env.period))
              ((s.docCounters.get (tx.deviceId, tx.docType, env.period)).getD 0 + 1) =
                (s.docCounters.get (tx.deviceId, tx.docType, env.period)).getD 0 + 1 :=
            max_eq_right (Nat.le_succ _)
          rw [hlast]
        · exact fun _ => Nat.lt_succ_self _
        · exact Covered.setCounter (Covered.refl _ _) List.mem_cons_self _
      · exact fun _ => trivial
  | recorded no =>
      apply (wp_bind _ _).mpr
      apply wp_deviceNo_any trivial
      intro device
      apply wp_bind_ofExcept
      · rintro ⟨p, k⟩ hok
        obtain ⟨n, rfl, rfl, rfl, hmax⟩ := of_validateDocNumber hok
        refine ⟨⟨(tx.deviceId, tx.docType, n.period), n.seq, ?_, hmax, rfl, ?_⟩, ?_⟩
        · exact seqIn_formatted.mpr ⟨rfl, rfl⟩
        · intro hissues
          unfold DocTx.issues at hissues
          rw [hn] at hissues
          cases hissues
        · exact Covered.setCounter (Covered.refl _ _) List.mem_cons_self _
      · exact fun _ _ => trivial

/-- A number has the type of its document, and is the client's when the client brought one. -/
structure DocTx.Gives (tx : DocTx) (no : DocNo) : Prop where
  formatted : ∃ n, no = .formatted n ∧ n.docType = tx.docType
  recorded : ∀ docNumber, tx.numbering = .recorded docNumber → no = docNumber

/-- A document's number is of its own device and series. -/
theorem wp_number_gives {tx : DocTx} :
    wp tx.number H s (fun _ => True) fun no _ _ => tx.Gives no := by
  unfold DocTx.number
  cases hn : tx.numbering with
  | issued env =>
      apply (wp_bind _ _).mpr
      apply wp_deviceNo_any trivial
      intro no
      apply wp_bind_selectFor
      apply wp_bind_require
      · intro _
        refine ⟨⟨_, rfl, rfl⟩, fun docNumber hrec => ?_⟩
        rw [hn] at hrec
        cases hrec
      · exact fun _ => trivial
  | recorded no =>
      apply (wp_bind _ _).mpr
      apply wp_deviceNo_any trivial
      intro device
      apply wp_bind_ofExcept
      · rintro ⟨p, k⟩ hok
        refine ⟨?_, fun docNumber hrec => ?_⟩
        · cases no with
          | other text => cases hok
          | formatted n =>
              simp only [validateDocNumber] at hok
              split_ifs at hok with htype
              exact ⟨n, rfl, not_not.mp htype⟩
        · rw [hn] at hrec
          exact Numbering.recorded.inj hrec
      · exact fun _ _ => trivial

/-- **Past the last number of a period nothing is issued.** -/
theorem wp_issue_exhausted {env : Env} {d : DeviceId} {docType : DocType}
    (h : maxDocNo ≤ s.lastNo (d, docType, env.period)) :
    wp (issue env d docType) H s
      (fun e => e = .docNumberExhausted ∨ e = .deviceRoleForbidden) fun _ _ _ => False := by
  apply (wp_bind _ _).mpr
  apply wp_deviceNo_any (.inr rfl)
  intro no
  apply wp_bind_selectFor
  apply wp_bind_require
  · intro hnext
    unfold Db.lastNo at h
    omega
  · exact fun _ => .inl rfl

/-- What a document did to the counters does not depend on the rest of the state. -/
theorem Numbered.of_same_counters {tx : DocTx} {no : DocNo} {s₁ s₂ s' : Db}
    (h : Numbered tx no s₁ s₂) (hbefore : s₁.docCounters = s.docCounters)
    (hafter : s'.docCounters = s₂.docCounters) : Numbered tx no s s' := by
  obtain ⟨c, seq, hseq, hmax, hset, hnext⟩ := h.series
  have hlast : s₁.lastNo = s.lastNo := by
    funext c'
    unfold Db.lastNo
    rw [hbefore]
  refine ⟨c, seq, hseq, hmax, ?_, ?_⟩
  · rw [hafter, hset, hlast]
    show s₁.docCounters.upsert c _ = s.docCounters.upsert c _
    rw [hbefore]
  · rw [← hlast]
    exact hnext

theorem wp_docTx {tx : DocTx} : wp tx.prog H s (fun _ => True) fun no H' s' =>
    Numbered tx no s s' ∧ Covered agree H' s s' := by
  apply wp_seq (tx.before.quiet H s)
  rintro _ H₁ s₁ ⟨hbefore, hcov₁⟩
  apply wp_seq (wp_grow wp_number)
  rintro no H₂ s₂ ⟨⟨hnum, hcov₂⟩, hH₂⟩
  apply wp_seq (wp_grow (tx.after.quiet H₂ s₂))
  rintro _ H₃ s₃ ⟨⟨hafter, hcov₃⟩, hH₃⟩
  refine ⟨hnum.of_same_counters hbefore hafter, ?_⟩
  exact Covered.trans (Covered.mono (Covered.trans (Covered.mono hcov₁ hH₂) hcov₂) hH₃) hcov₃

theorem wp_docTx_gives {tx : DocTx} :
    wp tx.prog H s (fun _ => True) fun no _ _ => tx.Gives no := by
  apply wp_seq (tx.before.quiet H s)
  rintro _ H₁ s₁ -
  apply wp_seq wp_number_gives
  rintro no H₂ s₂ hgives
  apply wp_seq (tx.after.quiet H₂ s₂)
  rintro _ H₃ s₃ -
  exact hgives

theorem disciplined_number (tx : DocTx) : Disciplined agree tx.number H fun _ _ => True := by
  unfold DocTx.number
  cases tx.numbering with
  | issued env => exact disciplined_issue env tx.deviceId tx.docType
  | recorded no => exact disciplined_recordClientDocNumber tx.deviceId tx.docType no

theorem disciplined_docTx (tx : DocTx) : Disciplined agree tx.prog H fun _ _ => True := by
  apply Disciplined.seq (tx.before.disciplined H)
  intro _ H₁ _ _
  apply Disciplined.seq (disciplined_number tx)
  intro no H₂ _ _
  exact Disciplined.seq (tx.after.disciplined H₂) fun _ _ _ _ => trivial

end

theorem sound_docTx : Sound DocTx.prog agree (fun _ : Db => True) (fun _ : ServerError => True) where
  equivalence := agree_equivalence
  disciplined tx := disciplined_docTx tx
  commits tx s _ := by
    apply wp_mono wp_docTx (fun _ h => h)
    rintro no H s' ⟨-, hcov⟩
    exact ⟨trivial, hcov⟩

/-! ## The series -/

/-- The numbers a run has given, `log` being its transactions in the order of their commits. -/
structure SeriesInOrder (s₀ : Db) (log : List (DocTx × DocNo)) (db : Db) : Prop where
  /-- every document has its number, in range -/
  within : ∀ e ∈ log, ∃ c k, seqIn c e = some k ∧ k ≤ maxDocNo
  /-- a number that was issued is past the numbers of its series that were committed before … -/
  ordered : log.Pairwise fun e e' => e'.1.issues = true →
    ∀ c k k', seqIn c e = some k → seqIn c e' = some k' → k < k'
  /-- … and past the counter as the run found it -/
  beyond : ∀ e ∈ log, e.1.issues = true → ∀ c k, seqIn c e = some k → s₀.lastNo c < k
  /-- the counter stands at the highest number of its series -/
  counter : ∀ c, db.lastNo c = (log.filterMap (seqIn c)).foldl max (s₀.lastNo c)

section
variable {s₀ s s' : Db} {log : List (DocTx × DocNo)}

theorem SeriesInOrder.init : SeriesInOrder s₀ [] s₀ where
  within _ he := absurd he List.not_mem_nil
  ordered := List.Pairwise.nil
  beyond _ he := absurd he List.not_mem_nil
  counter _ := rfl

private theorem le_foldl_max {l : List Nat} {n m : Nat} : n ≤ l.foldl max m ↔
    n ≤ m ∨ ∃ k ∈ l, n ≤ k := by
  induction l generalizing m with
  | nil => simp
  | cons a l ih =>
      rw [List.foldl_cons, ih, le_max_iff]
      simp only [List.mem_cons, exists_eq_or_imp]
      exact or_assoc

/-- A number of the log is one the counter has reached. -/
theorem SeriesInOrder.le_lastNo (h : SeriesInOrder s₀ log s) {e : DocTx × DocNo} (he : e ∈ log)
    {c : DeviceId × DocType × Period} {k : Nat} (hk : seqIn c e = some k) : k ≤ s.lastNo c := by
  rw [h.counter, le_foldl_max]
  exact .inr ⟨k, List.mem_filterMap.mpr ⟨e, he, hk⟩, le_refl k⟩

theorem SeriesInOrder.start_le (h : SeriesInOrder s₀ log s) (c : DeviceId × DocType × Period) :
    s₀.lastNo c ≤ s.lastNo c := by
  rw [h.counter, le_foldl_max]
  exact .inl (le_refl _)

/-- A transaction that commits keeps the series in order. -/
theorem SeriesInOrder.step {tx : DocTx} {no : DocNo} (h : SeriesInOrder s₀ log s)
    (hnum : Numbered tx no s s') : SeriesInOrder s₀ (log ++ [(tx, no)]) s' := by
  obtain ⟨c, seq, hseq, hmax, hset, hnext⟩ := hnum.series
  have hlast : ∀ c', s'.lastNo c' = if c' = c then max (s.lastNo c) seq else s.lastNo c' := by
    intro c'
    have hget : s'.lastNo c' = (s.setCounter c (max (s.lastNo c) seq)).lastNo c' :=
      congrArg (fun t => (t.get c').getD 0) hset
    exact hget.trans (lastNo_setCounter s c c' _)
  constructor
  · intro e he
    rcases List.mem_append.mp he with he | he
    · exact h.within e he
    · obtain rfl := List.mem_singleton.mp he
      exact ⟨c, seq, hseq, hmax⟩
  · apply List.pairwise_append.mpr
    refine ⟨h.ordered, List.pairwise_singleton _ _, ?_⟩
    intro e he e' he' hissues c' k k' hk hk'
    obtain rfl := List.mem_singleton.mp he'
    obtain ⟨rfl, rfl⟩ := seqIn_unique hseq hk'
    have hle := h.le_lastNo he hk
    have hlt := hnext hissues
    omega
  · intro e he hissues c' k hk
    rcases List.mem_append.mp he with he | he
    · exact h.beyond e he hissues c' k hk
    · obtain rfl := List.mem_singleton.mp he
      obtain ⟨rfl, rfl⟩ := seqIn_unique hseq hk
      have hle := h.start_le c
      have hlt := hnext hissues
      omega
  · intro c'
    rw [hlast, List.filterMap_append, List.foldl_append, ← h.counter]
    by_cases hc : c' = c
    · subst hc
      have hone : List.filterMap (seqIn c') [(tx, no)] = [seq] := by simp [hseq]
      rw [hone, if_pos rfl]
      rfl
    · have hnone : List.filterMap (seqIn c') [(tx, no)] = [] := by
        rw [List.filterMap_eq_nil_iff]
        intro e he
        obtain rfl := List.mem_singleton.mp he
        cases hk : seqIn c' (tx, no) with
        | none => rfl
        | some k => exact absurd (seqIn_unique hk hseq).1 hc
      rw [hnone, if_neg hc]
      rfl

/-- No two issued numbers of one device are the same. -/
theorem SeriesInOrder.distinct (h : SeriesInOrder s₀ log s) :
    ((log.filter (·.1.issues)).map fun e => (e.1.deviceId, e.1.docType, e.2)).Nodup := by
  rw [List.nodup_iff_pairwise_ne, List.pairwise_map, List.pairwise_filter]
  apply h.ordered.imp_of_mem
  intro e e' he he' hlt _ hissues heq
  obtain ⟨c, k, hk, -⟩ := h.within e he
  have hsame : seqIn c e' = some k := by
    rw [← hk]
    simp only [Prod.mk.injEq] at heq
    simp only [seqIn, heq.1, heq.2.1, heq.2.2]
  exact absurd (hlt hissues c k k hk hsame) (lt_irrefl k)

/-- A counter in range stays in range. -/
theorem SeriesInOrder.bounded (h : SeriesInOrder s₀ log s) {c : DeviceId × DocType × Period}
    (hc : s₀.lastNo c ≤ maxDocNo) : s.lastNo c ≤ maxDocNo := by
  have hle : s.lastNo c ≤ s.lastNo c := le_refl _
  nth_rewrite 2 [h.counter] at hle
  rcases le_foldl_max.mp hle with hle | ⟨k, hmem, hle⟩
  · omega
  · obtain ⟨e, he, hk⟩ := List.mem_filterMap.mp hmem
    obtain ⟨c', k', hk', hmax⟩ := h.within e he
    obtain ⟨-, rfl⟩ := seqIn_unique hk hk'
    omega

theorem Serial.series (h : Serial DocTx.prog s₀ log s) : SeriesInOrder s₀ log s := by
  apply h.invariant (SeriesInOrder s₀) .init
  intro log s tx _ hJ
  exact wp_mono wp_docTx (fun _ h => h) fun no _ s' hnum => hJ.step hnum.1

/-- **Main theorem.** However the transactions that number documents interleave, commit and roll
back, the numbers follow the order of their commits; no two issued numbers are the same; the
counters stay in range, and past the last number of a period nothing is issued. -/
theorem document_numbers_in_order {T : Type} [DecidableEq T]
    {S : Sys Db LockKey ServerError DocNo DocTx T} (h : Reachable DocTx.prog s₀ S) :
    SeriesInOrder s₀ S.log S.db ∧
    ((S.log.filter (·.1.issues)).map fun e => (e.1.deviceId, e.1.docType, e.2)).Nodup ∧
    (∀ c, s₀.lastNo c ≤ maxDocNo → S.db.lastNo c ≤ maxDocNo) ∧
    ∀ env d docType H, maxDocNo ≤ S.db.lastNo (d, docType, env.period) →
      wp (issue env d docType) H S.db
        (fun e => e = .docNumberExhausted ∨ e = .deviceRoleForbidden) fun _ _ _ => False := by
  have hseries := Serial.series (Reachable.serial sound_docTx trivial h)
  refine ⟨hseries, hseries.distinct, fun c hc => hseries.bounded hc, ?_⟩
  exact fun env d docType H hlast => wp_issue_exhausted hlast

end

/-! ## A month's numbers -/

/-- The till brings the number 9998, the server issues the next one and counts its sale for the
customer. -/
def lastNumbers : List DocTx :=
  [⟨1, .receipt, .recorded (.formatted ⟨.receipt, 1, 0, 9998⟩), .none, .none⟩,
   ⟨1, .receipt, .issued (plainEnv 1 70), .none, .tally (some 3) (·.move 2 2000)⟩]

/-- The month is over: the next number fails. -/
theorem document_numbers_in_order_of_lastNumbers :
    ∃ S : Sys Db LockKey ServerError DocNo DocTx Nat, Reachable DocTx.prog smallShop S ∧
      S.db.lastNo (1, .receipt, 0) = maxDocNo ∧ SeriesInOrder smallShop S.log S.db ∧
      ∀ H, wp (issue (plainEnv 2 71) 1 .receipt) H S.db
        (fun e => e = .docNumberExhausted ∨ e = .deviceRoleForbidden) fun _ _ _ => False := by
  obtain ⟨S, hreach, hdb⟩ : ∃ S : Sys Db LockKey ServerError DocNo DocTx Nat,
      Reachable DocTx.prog smallShop S ∧ S.db = rowsAfter DocTx.prog lastNumbers smallShop :=
    reachable_rowsAfter (by decide +kernel)
  have hlast : S.db.lastNo (1, .receipt, 0) = maxDocNo := by
    rw [hdb]
    decide +kernel
  obtain ⟨hseries, -, -, hexhausted⟩ := document_numbers_in_order hreach
  exact ⟨S, hreach, hlast, hseries, fun H => hexhausted _ _ _ H hlast.ge⟩

end Server
