import SrisurartPos.Till.DocNumbers

/-! # Fresh numbers

One till and the server. Requests and answers may be late, lost or repeated, in any order: what the
server does with a request and what the till does with the answer are steps of their own, and an
answer that is lost is one that never comes. A restart of the app loses only what is on its way. -/

namespace Till

open Server Txn

abbrev DocId := Nat

/-- A queued `sale.create` or `return.create`, with the number that was printed. -/
structure QueuedDoc where
  id : DocId
  docType : DocType
  docNo : DocNo
  deriving DecidableEq, Repr

structure Sys where
  till : NumberDb
  /-- every number that the till has put on a document, from its own counter or the server's answer -/
  documents : List (DocId × DocType × DocNo)
  outbox : List QueuedDoc
  server : Server.Db
  /-- the documents that the server has committed for the till -/
  stored : Table DocId (DocType × DocNo)
  /-- answers to `GET /doc-counters` on their way, and what was stored when they were given -/
  seeds : List (Seed × List DocId)
  /-- numbered by the server in answer to a `POST`, which the till has not recorded -/
  unheard : List DocId

def Sys.init (server : Server.Db) : Sys := ⟨.empty, [], [], server, .empty, [], []⟩

inductive Event where
  /-- the server handles a `POST` of the document, the first or a repeated one -/
  | post (x : DocId) (docType : DocType) (env : Env) (before after : Errand)
  /-- its answer reaches the till -/
  | answered (x : DocId)
  /-- the till writes the document without the server, with its own number -/
  | writeOffline (x : DocId) (docType : DocType) (period : Period)
  /-- the server handles the queued operation of the document -/
  | push (x : DocId) (before after : Errand)
  | pushAnswered (x : DocId)
  /-- a stuck or rejected operation is given up -/
  | discard (x : DocId)
  | askCounters (period : Period)
  | seeded (i : Nat) (now : Nat)

namespace Sys

variable (d : DeviceId)

/-- The number is on another document of the type (`RECEIPT_NO_CONFLICT`). -/
def taken (docType : DocType) (no : DocNo) (S : Sys) : Bool :=
  S.stored.rows.any fun e => e.2 = (docType, no)

/-- What the server commits for the document, if it does not answer with an error. -/
def commit (x : DocId) (tx : DocTx) (S : Sys) : Option Sys :=
  match tx.prog.run S.server with
  | .error _         => none
  | .ok (no, server) =>
      if S.taken tx.docType no then none
      else some { S with server := server, stored := S.stored.insert x (tx.docType, no) }

/-- The till takes the number that the server has for the document. -/
def record (x : DocId) (docType : DocType) (no : DocNo) (S : Sys) : Sys :=
  { S with
    till := S.till.commitServerIssued no
    documents := S.documents ++ [(x, docType, no)]
    unheard := if (S.till.recordable no).isSome then S.unheard.filter (· ≠ x) else S.unheard }

/-- What an event does. One that cannot happen, or that an error ends, does nothing. -/
def apply (e : Event) (S : Sys) : Sys :=
  match e with
  | .post x docType env before after =>
      if (S.stored.get x).isSome then S
      else match S.commit x ⟨d, docType, .issued env, before, after⟩ with
        | none    => S
        | some S' => { S' with unheard := x :: S'.unheard }
  | .answered x =>
      match S.stored.get x with
      | none               => S
      | some (docType, no) =>
          -- the row is inserted in the transaction that records the number
          if S.documents.any fun e => e.1 = x then S else S.record x docType no
  | .writeOffline x docType period =>
      if S.documents.any fun e => e.1 = x then S
      else match S.till.issueOffline docType period with
        | .error _       => S
        | .ok (no, till) =>
            { S with
              till := till
              documents := S.documents ++ [(x, docType, no)]
              outbox := S.outbox ++ [⟨x, docType, no⟩] }
  | .push x before after =>
      match S.outbox.find? fun op => op.id = x with
      | none    => S
      | some op =>
          if (S.stored.get x).isSome then S
          else (S.commit x ⟨d, op.docType, .recorded op.docNo, before, after⟩).getD S
  | .pushAnswered x =>
      if S.outbox.any fun op => op.id = x then
        match S.stored.get x with
        | none               => S
        | some (docType, no) =>
            { S.record x docType no with outbox := S.outbox.filter fun op => op.id ≠ x }
      else S
  | .discard x => { S with outbox := S.outbox.filter fun op => op.id ≠ x }
  | .askCounters period =>
      match forDevice d period S.server with
      | none      => S
      | some seed => { S with seeds := S.seeds ++ [(seed, S.stored.rows.map Prod.fst)] }
  | .seeded i now =>
      match S.seeds[i]? with
      | none               => S
      | some (seed, known) =>
          { S with
            till := S.till.seed seed now
            seeds := S.seeds.eraseIdx i
            unheard := S.unheard.filter (· ∉ known) }

/-- Whenever the till numbers a document, it knows of every other that the server has numbered; and
the server numbers one only while no other waits in the outbox. -/
def Informed (e : Event) (S : Sys) : Prop :=
  match e with
  | .writeOffline x _ _ => ∀ y ∈ S.unheard, y = x
  | .post x _ _ _ _     => S.stored.get x = none → ∀ op ∈ S.outbox, op.id = x
  | _                   => True

instance (S : Sys) : (e : Event) → Decidable (S.Informed e)
  | .writeOffline x _ _ => inferInstanceAs (Decidable (∀ y ∈ S.unheard, y = x))
  | .post x _ _ _ _     =>
      inferInstanceAs (Decidable (S.stored.get x = none → ∀ op ∈ S.outbox, op.id = x))
  | .answered _ | .push _ _ _ | .pushAnswered _ | .discard _ | .askCounters _ | .seeded _ _ =>
      .isTrue trivial

/-- Every step of the run is informed. -/
def AllInformed : List Event → Sys → Prop
  | [], _      => True
  | e :: es, S => S.Informed e ∧ AllInformed es (S.apply d e)

instance decidableAllInformed : (es : List Event) → (S : Sys) → Decidable (AllInformed d es S)
  | [], _      => .isTrue trivial
  | e :: es, S =>
      have := decidableAllInformed es (S.apply d e)
      inferInstanceAs (Decidable (_ ∧ _))

/-- The states of the runs whose steps are all informed. -/
inductive Runs (S₀ : Sys) : Sys → Prop where
  | start : Runs S₀ S₀
  | step {S : Sys} (e : Event) : Runs S₀ S → S.Informed e → Runs S₀ (S.apply d e)

end Sys

/-! ## What the till and the server know -/

namespace Sys

/-- The counters are ahead of the numbers that are known of. -/
structure Tracked (d : DeviceId) (S : Sys) : Prop where
  owned : S.till.Owned d
  /-- the server's counter is past what it has stored -/
  stored : ∀ x docType no, S.stored.get x = some (docType, no) → ∃ n, no = .formatted n ∧
    n.docType = docType ∧ n.seq ≤ S.server.lastNo (d, docType, n.period)
  /-- the till's is past what it has heard of … -/
  heard : ∀ x docType n, S.stored.get x = some (docType, .formatted n) → x ∉ S.unheard →
    n.seq ≤ S.till.lastNo (d, docType, n.period)
  /-- … and past what it has put on a document -/
  documents : ∀ x docType no, (x, docType, no) ∈ S.documents → ∃ n, no = .formatted n ∧
    (n.seq ≤ S.till.lastNo (d, docType, n.period) ∨
      x ∈ S.unheard ∧ S.stored.get x = some (docType, no))
  /-- an answer is past what was stored when it was given -/
  seeds : ∀ e ∈ S.seeds, e.1.deviceId = d ∧ ∀ x ∈ e.2, ∃ docType n,
    S.stored.get x = some (docType, .formatted n) ∧
      (n.seq = 0 ∨ ∃ v, (docType, n.period, v) ∈ e.1.counters ∧ n.seq ≤ v)
  outbox : ∀ op ∈ S.outbox, (op.id, op.docType, op.docNo) ∈ S.documents ∧ ∃ n,
    op.docNo = .formatted n ∧ n.docType = op.docType ∧
      n.seq ≤ S.till.lastNo (d, op.docType, n.period)
  /-- what waits in the outbox has numbers of its own … -/
  apart : ∀ op ∈ S.outbox, ∀ op' ∈ S.outbox, op.id ≠ op'.id →
    (op.docType, op.docNo) ≠ (op'.docType, op'.docNo)
  /-- … that no other document has on the server -/
  free : ∀ op ∈ S.outbox, ∀ y, y ≠ op.id → S.stored.get y ≠ some (op.docType, op.docNo)

theorem Tracked.init (d : DeviceId) (server : Server.Db) : Tracked d (init server) where
  owned := ⟨fun _ _ h => (by cases h), fun _ _ h => (by cases h)⟩
  stored _ _ _ h := by cases h
  heard _ _ _ h := by cases h
  documents _ _ _ h := by cases h
  seeds _ h := by cases h
  outbox _ h := by cases h
  apart _ h := by cases h
  free _ h := by cases h

section
variable {d : DeviceId} {S S' : Sys} {x : DocId} {tx : DocTx}

/-! ### The server commits -/

/-- A document that the server stores. -/
structure Commits (d : DeviceId) (x : DocId) (tx : DocTx) (n : DocNumber) (S S' : Sys) : Prop where
  fresh : S.stored.get x = none
  eq : ∃ server, S' =
    { S with server := server, stored := S.stored.insert x (tx.docType, .formatted n) }
  docType : n.docType = tx.docType
  within : n.seq ≤ S'.server.lastNo (d, tx.docType, n.period)
  rises : ∀ c, S.server.lastNo c ≤ S'.server.lastNo c
  recorded : ∀ no, tx.numbering = .recorded no → .formatted n = no

/-- A commit of this till's document gives it a number of the till's own series. -/
theorem of_commit (htx : tx.deviceId = d) (hx : S.stored.get x = none) (h : S.commit x tx = some S') :
    ∃ n, Commits d x tx n S S' := by
  unfold commit at h
  cases hrun : tx.prog.run S.server with
  | error e =>
      rw [hrun] at h
      cases h
  | ok r =>
      obtain ⟨no, server⟩ := r
      rw [hrun] at h
      simp only at h
      split at h
      · cases h
      obtain rfl := Option.some.inj h
      obtain ⟨-, hnumbered, -⟩ := wp_run (wp_docTx (H := [])) hrun
      obtain ⟨-, ⟨n, rfl, htype⟩, hrec⟩ := wp_run (wp_docTx_gives (H := [])) hrun
      obtain ⟨c, seq, hseq, -, hset, -⟩ := hnumbered.series
      obtain ⟨rfl, rfl⟩ := seqIn_formatted.mp hseq
      have hlast : ∀ c', server.lastNo c' = (S.server.setCounter (tx.deviceId, tx.docType, n.period)
          (max (S.server.lastNo (tx.deviceId, tx.docType, n.period)) n.seq)).lastNo c' := by
        intro c'
        show (server.docCounters.get c').getD 0 = _
        rw [hset]
        rfl
      refine ⟨n, hx, ⟨server, rfl⟩, htype, ?_, fun c' => ?_, hrec⟩
      · show _ ≤ server.lastNo _
        rw [hlast, lastNo_setCounter, htx, if_pos rfl]
        exact le_max_right _ _
      · show _ ≤ server.lastNo _
        rw [hlast, lastNo_setCounter]
        split
        · rename_i heq
          exact heq ▸ le_max_left _ _
        · exact le_rfl

variable {n : DocNumber} {till : NumberDb} {unheard : List DocId}

theorem Commits.stored (h : Commits d x tx n S S') (y : DocId) : S'.stored.get y =
    if y = x then some (tx.docType, .formatted n) else S.stored.get y := by
  obtain ⟨server, rfl⟩ := h.eq
  exact Table.get_insert h.fresh _ _

/-- What was stored stays so. -/
theorem Commits.kept (h : Commits d x tx n S S') {y : DocId} {e : DocType × DocNo}
    (hy : S.stored.get y = some e) : S'.stored.get y = some e := by
  rw [h.stored, if_neg, hy]
  rintro rfl
  rw [h.fresh] at hy
  cases hy

/-- The till has heard of the number, or may not have. -/
theorem Tracked.commits (h : Tracked d S) (hc : Commits d x tx n S S')
    (hsub : S.unheard ⊆ unheard)
    (hheard : x ∈ unheard ∨ n.seq ≤ S.till.lastNo (d, tx.docType, n.period))
    (hfree : ∀ op ∈ S.outbox, op.id ≠ x → (op.docType, op.docNo) ≠ (tx.docType, .formatted n)) :
    Tracked d { S' with unheard := unheard } := by
  have hstored := hc.stored
  have hkept := fun {y e} => @Commits.kept d S S' x tx n hc y e
  have hwithin := hc.within
  have hrises := hc.rises
  obtain ⟨server, rfl⟩ := hc.eq
  refine ⟨h.owned, ?_, ?_, ?_, ?_, h.outbox, h.apart, ?_⟩
  · intro y docType no hy
    rw [hstored] at hy
    split at hy
    · cases hy
      exact ⟨n, rfl, hc.docType, hwithin⟩
    · obtain ⟨m, rfl, htype, hle⟩ := h.stored y docType no hy
      exact ⟨m, rfl, htype, hle.trans (hrises _)⟩
  · intro y docType m hy hunheard
    rw [hstored] at hy
    split at hy
    · rename_i heq
      cases hy
      rcases hheard with hx | hle
      · exact absurd (heq ▸ hx) hunheard
      · exact hle
    · exact h.heard y docType m hy fun hmem => hunheard (hsub hmem)
  · intro y docType no hy
    obtain ⟨m, rfl, hle | ⟨hmem, hget⟩⟩ := h.documents y docType no hy
    · exact ⟨m, rfl, .inl hle⟩
    · exact ⟨m, rfl, .inr ⟨hsub hmem, hkept hget⟩⟩
  · intro e he
    obtain ⟨hdevice, hcovers⟩ := h.seeds e he
    refine ⟨hdevice, fun y hy => ?_⟩
    obtain ⟨docType, m, hget, hv⟩ := hcovers y hy
    exact ⟨docType, m, hkept hget, hv⟩
  · intro op hop y hne hy
    rw [hstored] at hy
    split at hy
    · rename_i heq
      exact hfree op hop (fun hid => hne (heq.trans hid.symm)) (Option.some.inj hy).symm
    · exact h.free op hop y hne hy

/-! ### The till learns -/

/-- Its counters rise, past what it need not hear of any more. -/
theorem Tracked.learn (h : Tracked d S) (howned : till.Owned d)
    (hrises : ∀ c, S.till.lastNo c ≤ till.lastNo c)
    (hlearn : ∀ y docType m, S.stored.get y = some (docType, .formatted m) → y ∈ S.unheard →
      y ∉ unheard → m.seq ≤ till.lastNo (d, docType, m.period)) :
    Tracked d { S with till := till, unheard := unheard } where
  owned := howned
  stored := h.stored
  heard y docType m hy hunheard := by
    by_cases hmem : y ∈ S.unheard
    · exact hlearn y docType m hy hmem hunheard
    · exact (h.heard y docType m hy hmem).trans (hrises _)
  documents y docType no hy := by
    obtain ⟨m, rfl, hle | ⟨hmem, hget⟩⟩ := h.documents y docType no hy
    · exact ⟨m, rfl, .inl (hle.trans (hrises _))⟩
    · by_cases hstill : y ∈ unheard
      · exact ⟨m, rfl, .inr ⟨hstill, hget⟩⟩
      · exact ⟨m, rfl, .inl (hlearn y docType m hget hmem hstill)⟩
  seeds := h.seeds
  outbox op hop := by
    obtain ⟨hdoc, m, hno, htype, hle⟩ := h.outbox op hop
    exact ⟨hdoc, m, hno, htype, hle.trans (hrises _)⟩
  apart := h.apart
  free := h.free

/-- A document keeps the till informed when its number is behind the counter, or its reply is still to come. -/
theorem Tracked.addDocument (h : Tracked d S) {docType : DocType} {no : DocNo}
    (hdoc : ∃ n, no = .formatted n ∧ (n.seq ≤ S.till.lastNo (d, docType, n.period) ∨
      x ∈ S.unheard ∧ S.stored.get x = some (docType, no))) :
    Tracked d { S with documents := S.documents ++ [(x, docType, no)] } where
  owned := h.owned
  stored := h.stored
  heard := h.heard
  documents y docType' no' hy := by
    rcases List.mem_append.mp hy with hy | hy
    · exact h.documents y docType' no' hy
    · cases List.mem_singleton.mp hy
      exact hdoc
  seeds := h.seeds
  outbox op hop := ⟨List.mem_append_left _ (h.outbox op hop).1, (h.outbox op hop).2⟩
  apart := h.apart
  free := h.free

theorem Tracked.forget (h : Tracked d S) {outbox : List QueuedDoc} (hsub : outbox ⊆ S.outbox) :
    Tracked d { S with outbox := outbox } :=
  { h with
    outbox := fun op hop => h.outbox op (hsub hop)
    apart := fun op hop op' hop' => h.apart op (hsub hop) op' (hsub hop')
    free := fun op hop => h.free op (hsub hop) }

/-- The till takes the number of a document that is stored. -/
theorem Tracked.record (h : Tracked d S) {docType : DocType} {no : DocNo}
    (hx : S.stored.get x = some (docType, no)) : Tracked d (S.record x docType no) := by
  obtain ⟨n, rfl, rfl, -⟩ := h.stored x docType no hx
  have hrises : ∀ c, S.till.lastNo c ≤ (S.till.commitServerIssued (.formatted n)).lastNo c :=
    fun c => NumberDb.le_lastNo_commitServerIssued _
  have hlearned : Tracked d { S with
      till := S.till.commitServerIssued (.formatted n)
      unheard := if (S.till.recordable (.formatted n)).isSome then S.unheard.filter (· ≠ x)
        else S.unheard } := by
    refine h.learn (h.owned.commitServerIssued _) hrises fun y docType m hy hmem hnot => ?_
    split at hnot
    · rename_i hrec
      obtain rfl : y = x := by
        by_contra hne
        exact hnot (List.mem_filter.mpr ⟨hmem, decide_eq_true hne⟩)
      rw [hx] at hy
      cases hy
      exact h.owned.recorded hrec
    · exact absurd hmem hnot
  refine hlearned.addDocument ⟨n, rfl, ?_⟩
  cases hrec : (S.till.recordable (.formatted n)).isSome with
  | true => exact .inl (h.owned.recorded hrec)
  | false =>
      by_cases hmem : x ∈ S.unheard
      · exact .inr ⟨by simpa [hrec] using hmem, hx⟩
      · exact .inl ((h.heard x _ n hx hmem).trans (hrises _))

/-! ### Every step -/

/-- A number is fresh when no other document of the till or of the server has it. -/
structure Fresh (S : Sys) (x : DocId) (docType : DocType) (no : DocNo) : Prop where
  stored : ∀ y, y ≠ x → S.stored.get y ≠ some (docType, no)
  documents : ∀ y, y ≠ x → (y, docType, no) ∉ S.documents

/-- The next number of the till's counter is fresh when the till has heard of all others. -/
theorem Tracked.fresh (h : Tracked d S) {docType : DocType} {period : Period} {no : DocNo}
    (hinformed : ∀ y ∈ S.unheard, y = x) (hissue : S.till.issueOffline docType period = .ok (no, till)) :
    S.Fresh x docType no := by
  obtain ⟨device, hd, rfl, -⟩ := NumberDb.of_issueOffline hissue
  rw [h.owned.seededDevice hd]
  constructor
  · intro y hne hy
    have hle := h.heard y docType _ hy fun hmem => hne (hinformed y hmem)
    exact absurd hle (Nat.not_succ_le_self _)
  · intro y hne hy
    obtain ⟨m, hm, hle | ⟨hmem, -⟩⟩ := h.documents y docType _ hy
    · obtain rfl := DocNo.formatted.inj hm
      exact absurd hle (Nat.not_succ_le_self _)
    · exact hne (hinformed y hmem)

/-- An offline document takes the next number, which nothing on the server has. -/
theorem Tracked.writeOffline (h : Tracked d S) {docType : DocType} {period : Period} {no : DocNo}
    (hinformed : ∀ y ∈ S.unheard, y = x) (hnew : ∀ e ∈ S.documents, e.1 ≠ x)
    (hissue : S.till.issueOffline docType period = .ok (no, till)) : Tracked d { S with
      till := till
      documents := S.documents ++ [(x, docType, no)]
      outbox := S.outbox ++ [⟨x, docType, no⟩] } := by
  have hfresh := h.fresh hinformed hissue
  obtain ⟨device, hd, rfl, rfl⟩ := NumberDb.of_issueOffline hissue
  have hdevice := h.owned.seededDevice hd
  obtain ⟨device, deviceNo⟩ := device
  obtain rfl : device = d := hdevice
  let till := S.till.raise (device, docType, period) deviceNo (S.till.lastNo (device, docType, period) + 1)
  have hlearned : Tracked device { S with till := till, unheard := S.unheard } :=
    h.learn (h.owned.raise rfl) (fun c => NumberDb.le_lastNo_raise) fun y _ _ _ hmem hnot => absurd hmem hnot
  have hadded := @Tracked.addDocument device _ x hlearned docType _
    ⟨⟨docType, deviceNo, period, S.till.lastNo (device, docType, period) + 1⟩, rfl,
      .inl NumberDb.lastNo_raise_self⟩
  have hother : ∀ op ∈ S.outbox, op.id ≠ x ∧ (op.docType, op.docNo) ≠
      (docType, .formatted ⟨docType, deviceNo, period, S.till.lastNo (device, docType, period) + 1⟩) := by
    intro op hop
    have hdoc := (h.outbox op hop).1
    have hne : op.id ≠ x := hnew _ hdoc
    refine ⟨hne, fun heq => hfresh.documents op.id hne ?_⟩
    show (op.id, docType, _) ∈ S.documents
    rw [← heq]
    exact hdoc
  refine { hadded with outbox := ?_, apart := ?_, free := ?_ }
  · intro op hop
    rcases List.mem_append.mp hop with hop | hop
    · exact hadded.outbox op hop
    · obtain rfl := List.mem_singleton.mp hop
      exact ⟨List.mem_append_right _ List.mem_cons_self, _, rfl, rfl,
        NumberDb.lastNo_raise_self⟩
  · intro op hop op' hop' hne
    rcases List.mem_append.mp hop with hop | hop
    · rcases List.mem_append.mp hop' with hop' | hop'
      · exact h.apart op hop op' hop' hne
      · obtain rfl := List.mem_singleton.mp hop'
        exact (hother op hop).2
    · obtain rfl := List.mem_singleton.mp hop
      rcases List.mem_append.mp hop' with hop' | hop'
      · exact (hother op' hop').2.symm
      · obtain rfl := List.mem_singleton.mp hop'
        exact absurd rfl hne
  · intro op hop y hne
    rcases List.mem_append.mp hop with hop | hop
    · exact h.free op hop y hne
    · obtain rfl := List.mem_singleton.mp hop
      exact hfresh.stored y hne

/-- A seed that is asked for knows of all that is stored by then. -/
theorem Tracked.askCounters (h : Tracked d S) {period : Period} {seed : Seed}
    (hseed : forDevice d period S.server = some seed) :
    Tracked d { S with seeds := S.seeds ++ [(seed, S.stored.rows.map Prod.fst)] } := by
  obtain ⟨device, -, rfl⟩ := Option.map_eq_some_iff.mp hseed
  refine { h with seeds := fun e he => ?_ }
  rcases List.mem_append.mp he with he | he
  · exact h.seeds e he
  obtain rfl := List.mem_singleton.mp he
  refine ⟨rfl, fun y hy => ?_⟩
  obtain ⟨⟨y', docType, no⟩, hrow, rfl⟩ := List.mem_map.mp hy
  have hget := S.stored.mem_rows.mp hrow
  obtain ⟨n, rfl, -, hle⟩ := h.stored y' docType no hget
  refine ⟨docType, n, hget, ?_⟩
  -- a counter that is not there has issued nothing
  unfold Db.lastNo at hle
  cases hlast : S.server.docCounters.get (d, docType, n.period) with
  | none =>
      rw [hlast] at hle
      exact .inl (Nat.le_zero.mp hle)
  | some v =>
      rw [hlast] at hle
      refine .inr ⟨v, List.mem_map.mpr ⟨((d, docType, n.period), v), ?_, rfl⟩, hle⟩
      exact List.mem_filter.mpr ⟨S.server.docCounters.mem_rows.mpr hlast, decide_eq_true rfl⟩

/-- The counters that it raises are behind none of these. -/
theorem Tracked.seeded (h : Tracked d S) {i now : Nat} {seed : Seed} {known : List DocId}
    (hi : S.seeds[i]? = some (seed, known)) : Tracked d { S with
      till := S.till.seed seed now
      seeds := S.seeds.eraseIdx i
      unheard := S.unheard.filter (· ∉ known) } := by
  obtain ⟨rfl, hcovers⟩ := h.seeds (seed, known) (List.mem_of_getElem? hi)
  have hlearned : Tracked seed.deviceId { S with
      till := S.till.seed seed now, unheard := S.unheard.filter (· ∉ known) } := by
    refine h.learn h.owned.seeded (fun c => NumberDb.le_lastNo_seed) fun y docType m hy hmem hnot => ?_
    have hknown : y ∈ known := by
      by_contra hnew
      exact hnot (List.mem_filter.mpr ⟨hmem, decide_eq_true hnew⟩)
    obtain ⟨docType', n, hget, hn⟩ := hcovers y hknown
    rw [hget] at hy
    cases hy
    rcases hn with hzero | ⟨v, hv, hle⟩
    · exact hzero ▸ Nat.zero_le _
    · exact hle.trans (NumberDb.mem_le_lastNo_seed hv)
  exact { hlearned with seeds := fun e he => h.seeds e (List.mem_of_mem_eraseIdx he) }

/-- **Every informed step keeps the counters ahead.** -/
theorem Tracked.step (h : Tracked d S) {e : Event} (hi : S.Informed e) : Tracked d (S.apply d e) := by
  cases e with
  -- the server's next number; the reply may be lost, so it is unheard until then
  | post x docType env before after =>
      simp only [apply]
      split
      · exact h
      rename_i hnew
      have hx : S.stored.get x = none := by simpa using hnew
      split
      · exact h
      rename_i S' hS'
      obtain ⟨n, hc⟩ := of_commit rfl hx hS'
      have hunheard : S'.unheard = S.unheard := by
        obtain ⟨server, rfl⟩ := hc.eq
        rfl
      rw [hunheard]
      -- no queued document has this id under another number
      refine h.commits hc (List.subset_cons_self _ _) (.inl List.mem_cons_self) fun op hop hne => ?_
      exact absurd (hi hx op hop) hne
  | answered x =>
      simp only [apply]
      split
      · exact h
      rename_i docType no hx
      split
      · exact h
      · exact h.record hx
  -- the till's own counter, which is ahead of all it has heard of
  | writeOffline x docType period =>
      simp only [apply]
      split
      · exact h
      rename_i hnew
      split
      · exact h
      rename_i no till hissue
      refine h.writeOffline hi (fun e he hid => hnew ?_) hissue
      exact List.any_eq_true.mpr ⟨e, he, decide_eq_true hid⟩
  -- the number goes along, and the server stores it as it is
  | push x before after =>
      simp only [apply]
      split
      · exact h
      rename_i op hop
      have hmem := List.mem_of_find?_eq_some hop
      have hid : op.id = x := by simpa using List.find?_some hop
      split
      · exact h
      rename_i hnew
      have hx : S.stored.get x = none := by simpa using hnew
      cases hS' : S.commit x ⟨d, op.docType, .recorded op.docNo, before, after⟩ with
      | none => exact h
      | some S' =>
          obtain ⟨n, hc⟩ := of_commit rfl hx hS'
          have hno : DocNo.formatted n = op.docNo := hc.recorded _ rfl
          have hsame : { S' with unheard := S.unheard } = S' := by
            obtain ⟨server, rfl⟩ := hc.eq
            rfl
          rw [Option.getD_some, ← hsame]
          obtain ⟨-, m, hm, -, hle⟩ := h.outbox op hmem
          refine h.commits hc (List.Subset.refl _) (.inr ?_) fun op' hop' hne => ?_
          · obtain rfl := DocNo.formatted.inj (hno.trans hm)
            exact hle
          · show _ ≠ (op.docType, DocNo.formatted n)
            rw [hno]
            exact h.apart op' hop' op hmem fun heq => hne (heq.trans hid)
  -- heard like any other answer, and the operation leaves the outbox
  | pushAnswered x =>
      simp only [apply]
      split
      · split
        · exact h
        · rename_i docType no hx
          exact (h.record hx).forget (List.filter_subset_self _)
      · exact h
  | discard x => exact h.forget (List.filter_subset_self _)
  -- the seed is what the server has now
  | askCounters period =>
      simp only [apply]
      split
      · exact h
      · rename_i seed hseed
        exact h.askCounters hseed
  | seeded i now =>
      simp only [apply]
      split
      · exact h
      · rename_i seed known hseed
        exact h.seeded hseed

theorem Runs.tracked {server : Server.Db} (h : Runs d (init server) S) : Tracked d S := by
  induction h with
  | start => exact .init d server
  | step e _ hi ih => exact ih.step hi

end

/-- **Main theorem.** However requests and answers are lost, late or repeated: as long as the till,
whenever it numbers a document itself, has heard of every other that the server has numbered, and the
server numbers none while others wait in the outbox, the till's number is on no other document, of the
till or of the server, and no document in the outbox will find its number taken. -/
theorem offline_numbers_fresh {d : DeviceId} {server : Server.Db} {S : Sys}
    (h : Runs d (init server) S) :
    (∀ x docType period no till, S.Informed (.writeOffline x docType period) →
      S.till.issueOffline docType period = .ok (no, till) → S.Fresh x docType no) ∧
    ∀ op ∈ S.outbox, S.stored.get op.id = none → S.taken op.docType op.docNo = false := by
  refine ⟨fun x docType period no till hi hissue => h.tracked.fresh hi hissue, fun op hop hnew => ?_⟩
  refine List.any_eq_false.mpr fun e he htaken => ?_
  have hget := S.stored.mem_rows.mp he
  rw [of_decide_eq_true htaken] at hget
  refine h.tracked.free op hop e.1 (fun hid => ?_) hget
  rw [hid, hnew] at hget
  cases hget

/-! ## A till without its server -/

theorem Runs.foldl {d : DeviceId} {S₀ S : Sys} {events : List Event} (h : Runs d S₀ S)
    (hall : AllInformed d events S) : Runs d S₀ (events.foldl (fun S e => S.apply d e) S) := by
  induction events generalizing S with
  | nil => exact h
  | cons e events ih => exact ih (h.step e hall.1) hall.2

/-- The till asks for the counters, sells a bill online whose answer arrives, and another offline. -/
def heardOf : List Event :=
  [.askCounters 0, .seeded 0 5, .post 50 .receipt (plainEnv 6 70) .none .none, .answered 50,
    .writeOffline 60 .receipt 0]

/-- The answer to the first bill is an error, though it was committed. -/
def neverHeardOf : List Event :=
  [.askCounters 0, .seeded 0 5, .post 50 .receipt (plainEnv 6 70) .none .none,
    .writeOffline 60 .receipt 0]

def after (events : List Event) : Sys := events.foldl (fun S e => S.apply 1 e) (init smallShop)

theorem offline_numbers_fresh_of_heardOf :
    (after heardOf).documents = [(50, .receipt, .formatted ⟨.receipt, 1, 0, 1⟩),
      (60, .receipt, .formatted ⟨.receipt, 1, 0, 2⟩)] ∧
    (after heardOf).taken .receipt (.formatted ⟨.receipt, 1, 0, 2⟩) = false := by
  have hdocs : (after heardOf).documents = [(50, .receipt, .formatted ⟨.receipt, 1, 0, 1⟩),
      (60, .receipt, .formatted ⟨.receipt, 1, 0, 2⟩)] := by decide +kernel
  have hruns : Runs 1 (init smallShop) (after heardOf) := Runs.start.foldl (by decide +kernel)
  have hqueued : ⟨60, .receipt, .formatted ⟨.receipt, 1, 0, 2⟩⟩ ∈ (after heardOf).outbox := by
    decide +kernel
  exact ⟨hdocs, (offline_numbers_fresh hruns).2 _ hqueued (by decide +kernel)⟩

/-- The second bill gets the number of the first, and is refused for it. -/
theorem offline_numbers_collide :
    (after neverHeardOf).stored.get 50 = some (.receipt, .formatted ⟨.receipt, 1, 0, 1⟩) ∧
    (60, .receipt, .formatted ⟨.receipt, 1, 0, 1⟩) ∈ (after neverHeardOf).documents ∧
    (after neverHeardOf).taken .receipt (.formatted ⟨.receipt, 1, 0, 1⟩) = true ∧
    ((after neverHeardOf).apply 1 (.push 60 .none .none)).stored.get 60 = none := by
  decide +kernel

end Sys

end Till
