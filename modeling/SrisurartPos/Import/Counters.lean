import SrisurartPos.Server.DocSeries
import SrisurartPos.Server.NumberText

/-! # The counters after an import (`seedDocCounters`)

The import reads the numbers of the documents it stores and raises the counters of the shop's devices to
them, so that no number is issued twice. It finds a row's number by another rule than the one that
stores it. -/

namespace Import

open Server Txn

/-! ## The file -/

/-- A value of the file, where it stands for a text. -/
inductive JsonValue where
  /-- `null`, or not there -/
  | null
  | false
  | zero
  | str (s : String)
  /-- what is true to JavaScript and no text, with its text -/
  | other (text : String)
  deriving DecidableEq, Repr

namespace JsonValue

/-- `String(v)` -/
def text : JsonValue → String
  | .null    => "null"
  | .false   => "false"
  | .zero    => "0"
  | .str s   => s
  | .other t => t

/-- `a ?? b` -/
def orNull (a b : JsonValue) : JsonValue := if a = .null then b else a

def falsy (a : JsonValue) : Bool := a = .null || a = .false || a = .zero || a = .str ""

/-- `a || b` -/
def orFalsy (a b : JsonValue) : JsonValue := if a.falsy then b else a

end JsonValue

/-- A row of a store of documents: its id, and its number under both spellings of the field. -/
structure NumberedRow where
  id : String
  field : JsonValue
  snake : JsonValue
  deriving DecidableEq, Repr

/-- The stores of the file that hold documents. -/
structure NumberedStores where
  saSales : List NumberedRow
  saReturns : List NumberedRow
  saPos : List NumberedRow
  saQuotes : List NumberedRow
  saCreditPayments : List NumberedRow

def NumberedStores.rows (f : NumberedStores) : DocType → List NumberedRow
  | .receipt => f.saSales
  | .cn      => f.saReturns
  | .po      => f.saPos
  | .quote   => f.saQuotes
  | .cp      => f.saCreditPayments

/-- The number a row is stored with. -/
def NumberedRow.stored (t : DocType) (r : NumberedRow) : List Char :=
  if (r.field.orFalsy r.snake).falsy then t.docPrefix ++ '-' :: r.id.toList
  else (r.field.orFalsy r.snake).text.toList

/-- The rows that are stored. Of several with one id the first is. -/
def NumberedStores.imported (f : NumberedStores) (t : DocType) : List NumberedRow :=
  (Table.insertAll ((f.rows t).map fun r => (r.id, r))).rows.map Prod.snd

/-! ## The counters -/

/-- The white space of `trim`. -/
def isWhite (c : Char) : Bool :=
  (9 ≤ c.toNat && c.toNat ≤ 13) || (8192 ≤ c.toNat && c.toNat ≤ 8202) ||
    [32, 160, 5760, 8232, 8233, 8239, 8287, 12288, 65279].contains c.toNat

def trim (cs : List Char) : List Char := ((cs.dropWhile isWhite).reverse.dropWhile isWhite).reverse

/-- What the scan reads of a row. -/
def NumberedRow.scanned (r : NumberedRow) : Option DocMatch :=
  docNumberRegex (trim ((r.field.orNull r.snake).orNull (.str "")).text.toList)

/-- `deviceByNo` -/
def deviceByNo (db : Db) (no : Nat) : Option DeviceId :=
  (db.devices.rows.reverse.find? fun e => e.2.deviceNo = no).map Prod.fst

/-- The highest number of each series so far, and the device numbers that were skipped. -/
abbrev Scan := Table (DeviceId × DocType × Period) Nat × List Nat

def scanRow (db : Db) (t : DocType) (acc : Scan) (r : NumberedRow) : Scan :=
  match r.scanned with
  | none   => acc
  | some m =>
      if m.letters ≠ t.docPrefix then acc
      else
        match deviceByNo db m.deviceNo with
        | none   => (acc.1, if m.deviceNo ∈ acc.2 then acc.2 else acc.2 ++ [m.deviceNo])
        | some d =>
            if (acc.1.get (d, t, m.period)).getD 0 < m.seq then
              (acc.1.upsert (d, t, m.period) m.seq, acc.2)
            else acc

def scan (db : Db) (f : NumberedStores) : Scan :=
  [DocType.receipt, .cn, .po, .quote, .cp].foldl (fun acc t => (f.rows t).foldl (scanRow db t) acc)
    (Table.empty, [])

def raise (db : Db) (c : (DeviceId × DocType × Period) × Nat) : Db :=
  db.setCounter c.1 (max (db.lastNo c.1) c.2)

structure SeedResult where
  written : Nat
  skippedDeviceNos : List Nat

def seedDocCounters (db : Db) (f : NumberedStores) : Db × SeedResult :=
  ((scan db f).1.rows.foldl raise db,
    { written := (scan db f).1.rows.length
      skippedDeviceNos := (scan db f).2.mergeSort })

/-! ## The statement -/

/-- A number among the imported documents, in the server's format, and the device it is of. -/
structure ImportedNo (db : Db) (f : NumberedStores) (n : DocNumber) (d : DeviceId) : Prop where
  fits : n.Fits
  stored : ∃ r ∈ f.imported n.docType, r.stored n.docType = formatDocNumber n
  device : ∃ row, db.devices.get d = some row ∧ row.deviceNo = n.deviceNo

/-- The counters `db` had before the import and `db'` has after it. -/
structure Seeded (db : Db) (f : NumberedStores) (db' : Db) : Prop where
  kept : ∀ c, db.lastNo c ≤ db'.lastNo c
  raised : ∀ n d, ImportedNo db f n d → n.seq ≤ db'.lastNo (d, n.docType, n.period)
  /-- however documents are numbered afterwards, an issued number is past the ones that were issued
  before the import, and past the imported ones -/
  fresh : ∀ (T : Type) [DecidableEq T] (S : Txn.Sys Db LockKey ServerError DocNo DocTx T),
    Reachable DocTx.prog db' S → ∀ e ∈ S.log, e.1.issues = true → ∀ c k, seqIn c e = some k →
      db.lastNo c < k ∧ ∀ n d, ImportedNo db f n d → (d, n.docType, n.period) = c → n.seq < k

/-- Where the field of a stored row is there but empty, the number it was stored with was reached by the
counter, or by a number that the scan does read. -/
def ReadsAll (db : Db) (f : NumberedStores) : Prop :=
  ∀ t, ∀ r ∈ f.imported t, r.field.falsy = true → r.field ≠ .null →
    ∀ n d, n.docType = t → r.stored t = formatDocNumber n → ImportedNo db f n d →
      n.seq ≤ db.lastNo (d, t, n.period) ∨
        ∃ r' ∈ f.rows t, ∃ m, r'.scanned = some m ∧ m.letters = t.docPrefix ∧
          m.deviceNo = n.deviceNo ∧ m.period = n.period ∧ n.seq ≤ m.seq

/-- `UNIQUE (tenant_id, device_no)` -/
def UniqueDeviceNos (db : Db) : Prop :=
  ∀ d d' row row', db.devices.get d = some row → db.devices.get d' = some row' →
    row.deviceNo = row'.deviceNo → d = d'

/-! ## What the scan finds -/

variable {db : Db} {f : NumberedStores} {t : DocType} {r : NumberedRow} {c : DeviceId × DocType × Period}
  {k : Nat}

/-- The series of a row that is read, and its number in it. -/
def NumberedRow.series (db : Db) (t : DocType) (r : NumberedRow) :
    Option ((DeviceId × DocType × Period) × Nat) :=
  r.scanned.bind fun m =>
    if m.letters = t.docPrefix then (deviceByNo db m.deviceNo).map fun d => ((d, t, m.period), m.seq)
    else none

/-- One row raises its series to its number. -/
theorem le_scanRow (acc : Scan) : k ≤ ((scanRow db t acc r).1.get c).getD 0 ↔
    k ≤ (acc.1.get c).getD 0 ∨ ∃ m, r.series db t = some (c, m) ∧ k ≤ m := by
  rw [scanRow, NumberedRow.series]
  cases r.scanned with
  | none => simp
  | some m =>
      simp only [Option.bind_some]
      by_cases hletters : m.letters = t.docPrefix
      · cases deviceByNo db m.deviceNo with
        | none => simp [hletters]
        | some d =>
            simp only [hletters, if_true, Option.map_some, ne_eq, not_true_eq_false, if_false,
              Option.some.injEq, Prod.mk.injEq]
            split
            · rename_i hlt
              rw [Table.get_upsert]
              by_cases hc : c = (d, t, m.period)
              · subst hc
                simp only [if_true, Option.getD_some]
                constructor
                · exact fun hk => .inr ⟨m.seq, ⟨trivial, rfl⟩, hk⟩
                · rintro (hk | ⟨m', ⟨-, rfl⟩, hk⟩)
                  · omega
                  · exact hk
              · rw [if_neg hc]
                constructor
                · exact .inl
                · rintro (hk | ⟨m', ⟨heq, -⟩, -⟩)
                  · exact hk
                  · exact absurd heq.symm hc
            · rename_i hge
              constructor
              · exact .inl
              · rintro (hk | ⟨m', ⟨rfl, rfl⟩, hk⟩)
                · exact hk
                · omega
      · simp [hletters]

theorem le_scanRows (rows : List NumberedRow) (acc : Scan) :
    k ≤ ((rows.foldl (scanRow db t) acc).1.get c).getD 0 ↔
      k ≤ (acc.1.get c).getD 0 ∨ ∃ r ∈ rows, ∃ m, r.series db t = some (c, m) ∧ k ≤ m := by
  induction rows generalizing acc with
  | nil => simp
  | cons r rows ih =>
      rw [List.foldl_cons, ih, le_scanRow, or_assoc]
      simp only [List.mem_cons, exists_eq_or_imp]

theorem le_scanStores (ts : List DocType) (acc : Scan) :
    k ≤ ((ts.foldl (fun acc t => (f.rows t).foldl (scanRow db t) acc) acc).1.get c).getD 0 ↔
      k ≤ (acc.1.get c).getD 0 ∨
        ∃ t ∈ ts, ∃ r ∈ f.rows t, ∃ m, r.series db t = some (c, m) ∧ k ≤ m := by
  induction ts generalizing acc with
  | nil => simp
  | cons t ts ih =>
      rw [List.foldl_cons, ih, le_scanRows, or_assoc]
      simp only [List.mem_cons, exists_eq_or_imp]

/-- A counter has reached a number where it had before, or where the scan has found one at least as large. -/
theorem le_raised (l : List ((DeviceId × DocType × Period) × Nat)) (db : Db) :
    k ≤ (l.foldl raise db).lastNo c ↔ k ≤ db.lastNo c ∨ ∃ m, (c, m) ∈ l ∧ k ≤ m := by
  induction l generalizing db with
  | nil => simp
  | cons e l ih =>
      obtain ⟨c', m⟩ := e
      rw [List.foldl_cons, ih, raise, lastNo_setCounter]
      by_cases hc : c = c'
      · subst hc
        simp only [if_true, le_max_iff, List.mem_cons, Prod.mk.injEq, true_and]
        constructor
        · rintro ((hk | hk) | ⟨m', hm', hk⟩)
          · exact .inl hk
          · exact .inr ⟨m, .inl rfl, hk⟩
          · exact .inr ⟨m', .inr hm', hk⟩
        · rintro (hk | ⟨m', rfl | hm', hk⟩)
          · exact .inl (.inl hk)
          · exact .inl (.inr hk)
          · exact .inr ⟨m', hm', hk⟩
      · simp [hc]

/-- **What a counter is after the import**: what it was, or the highest number of its series that the
scan reads. -/
theorem le_seeded : k ≤ (seedDocCounters db f).1.lastNo c ↔
    k ≤ db.lastNo c ∨ ∃ t, ∃ r ∈ f.rows t, ∃ m, r.series db t = some (c, m) ∧ k ≤ m := by
  rw [seedDocCounters, le_raised]
  have hscan := @le_scanStores db f c k [.receipt, .cn, .po, .quote, .cp] (Table.empty, [])
  simp only [Table.get_empty, Option.getD_none] at hscan
  constructor
  · rintro (hk | ⟨m, hm, hk⟩)
    · exact .inl hk
    · rw [Table.mem_rows] at hm
      have hle : k ≤ ((scan db f).1.get c).getD 0 := by
        rw [hm]
        exact hk
      rcases hscan.mp hle with hzero | ⟨t, -, hread⟩
      · exact .inl (hzero.trans (Nat.zero_le _))
      · exact .inr ⟨t, hread⟩
  · rintro (hk | ⟨t, hread⟩)
    · exact .inl hk
    · have ht : t ∈ [DocType.receipt, .cn, .po, .quote, .cp] := by cases t <;> decide
      have hle : k ≤ ((scan db f).1.get c).getD 0 := hscan.mpr (.inr ⟨t, ht, hread⟩)
      cases hget : (scan db f).1.get c with
      | none =>
          rw [hget] at hle
          exact .inl (hle.trans (Nat.zero_le _))
      | some m =>
          rw [hget] at hle
          exact .inr ⟨m, (Table.mem_rows _).mpr hget, hle⟩

/-! ## What the scan reads -/

theorem deviceByNo_eq (hunique : UniqueDeviceNos db) {d : DeviceId} {row : Device}
    (h : db.devices.get d = some row) : deviceByNo db row.deviceNo = some d := by
  rw [deviceByNo]
  cases hfind : db.devices.rows.reverse.find? fun e => e.2.deviceNo = row.deviceNo with
  | none =>
      have hno := List.find?_eq_none.mp hfind (d, row) (List.mem_reverse.mpr (db.devices.mem_rows.mpr h))
      simp at hno
  | some e =>
      have hmem := db.devices.mem_rows.mp (List.mem_reverse.mp (List.mem_of_find?_eq_some hfind))
      have hno : e.2.deviceNo = row.deviceNo := by simpa using List.find?_some hfind
      exact congrArg some (hunique _ _ _ _ hmem h hno)

theorem of_deviceByNo {no : Nat} {d : DeviceId} (h : deviceByNo db no = some d) :
    ∃ row, db.devices.get d = some row ∧ row.deviceNo = no := by
  obtain ⟨e, hfind, rfl⟩ := Option.map_eq_some_iff.mp h
  have hno : e.2.deviceNo = no := by simpa using List.find?_some hfind
  exact ⟨e.2, db.devices.mem_rows.mp (List.mem_reverse.mp (List.mem_of_find?_eq_some hfind)), hno⟩

theorem of_series {m : Nat} (h : r.series db t = some (c, m)) :
    ∃ g d, r.scanned = some g ∧ g.letters = t.docPrefix ∧ deviceByNo db g.deviceNo = some d ∧
      c = (d, t, g.period) ∧ m = g.seq := by
  obtain ⟨g, hscanned, hg⟩ := Option.bind_eq_some_iff.mp h
  split at hg
  · rename_i hletters
    obtain ⟨d, hd, heq⟩ := Option.map_eq_some_iff.mp hg
    obtain ⟨rfl, rfl⟩ := Prod.mk.inj heq
    exact ⟨g, d, hscanned, hletters, hd, rfl, rfl⟩
  · cases hg

/-- The letters, digits and dashes of a number are no white space. -/
theorem not_isWhite {ch : Char} (h : ch.isUpper = true ∨ ch.isDigit = true ∨ ch = '-') :
    isWhite ch = false := by
  have hrange : ch.toNat = 45 ∨ 48 ≤ ch.toNat ∧ ch.toNat ≤ 90 := by
    rcases h with h | h | rfl
    · have hletter : 65 ≤ ch.val ∧ ch.val ≤ 90 := of_decide_eq_true h
      have hge : 65 ≤ ch.toNat := hletter.1
      have hle : ch.toNat ≤ 90 := hletter.2
      omega
    · simp only [Char.isDigit, Bool.and_eq_true, decide_eq_true_eq] at h
      have hge : 48 ≤ ch.toNat := h.1
      have hle : ch.toNat ≤ 57 := h.2
      omega
    · exact .inl rfl
  simp only [isWhite, List.contains_eq_mem, List.mem_cons, List.not_mem_nil, or_false,
    Bool.or_eq_false_iff, Bool.and_eq_false_iff, decide_eq_false_iff_not]
  omega

theorem trim_eq {cs : List Char} (h : ∀ ch ∈ cs, isWhite ch = false) : trim cs = cs := by
  have hdrop : ∀ l : List Char, (∀ ch ∈ l, isWhite ch = false) → l.dropWhile isWhite = l := by
    intro l hl
    cases l with
    | nil => rfl
    | cons ch l => rw [List.dropWhile_cons, if_neg (by simp [hl ch List.mem_cons_self])]
  rw [trim, hdrop cs h, hdrop _ fun ch hch => h ch (List.mem_reverse.mp hch), List.reverse_reverse]

/-- A number in the server's format has no white space. -/
theorem trim_format (n : DocNumber) : trim (formatDocNumber n) = formatDocNumber n := by
  refine trim_eq fun ch hch => not_isWhite ?_
  have hdigit : ∀ k m, ch ∈ Numeral.padStart k m → ch.isDigit = true := fun k m hm =>
    Numeral.isDigit_padStart ch hm
  simp only [formatDocNumber, periodText, List.mem_append, List.mem_cons] at hch
  rcases hch with ((hch | hch) | rfl | hch | rfl | hch) | rfl | hch
  · cases hdoc : n.docType <;> simp [hdoc, DocType.docPrefix] at hch <;> rcases hch with rfl | rfl <;>
      exact .inl (by decide)
  · exact .inr (.inl (hdigit _ _ hch))
  · exact .inr (.inr rfl)
  · exact .inr (.inl (hdigit _ _ hch))
  · exact .inr (.inr rfl)
  · exact .inr (.inl (hdigit _ _ hch))
  · exact .inr (.inr rfl)
  · exact .inr (.inl (hdigit _ _ hch))

/-- The number that a row is given when it has none is not in the server's format. -/
theorem fallback_ne_format {n : DocNumber} (h : n.Fits) (cs : List Char) :
    n.docType.docPrefix ++ '-' :: cs ≠ formatDocNumber n := by
  intro heq
  obtain ⟨a, b, hab, ha, -⟩ := digits_two h.deviceNo
  simp only [formatDocNumber, hab, List.append_assoc] at heq
  have htail := List.append_cancel_left heq
  rw [← (List.cons.inj htail).1] at ha
  exact absurd ha (by decide)

/-- **Where the field is not there but empty, the scan reads the number that is stored.** -/
theorem scanned_of_stored {n : DocNumber} (hfits : n.Fits) (hstored : r.stored n.docType = formatDocNumber n)
    (hfield : r.field.falsy = false ∨ r.field = .null) :
    r.scanned = some ⟨n.docType.docPrefix, n.deviceNo, n.period, n.seq⟩ := by
  have hread : ∀ v : JsonValue, r.field.orFalsy r.snake = v → (r.field.orNull r.snake) = v →
      r.scanned = some ⟨n.docType.docPrefix, n.deviceNo, n.period, n.seq⟩ := by
    intro v hor hnull
    rw [NumberedRow.stored, hor] at hstored
    split at hstored
    · exact absurd hstored (fallback_ne_format hfits _)
    · rename_i hv
      have hne : v ≠ .null := by
        rintro rfl
        exact hv rfl
      rw [NumberedRow.scanned, hnull, JsonValue.orNull, if_neg hne, hstored, trim_format]
      exact docNumberRegex_format hfits
  rcases hfield with hfield | hfield
  · have hne : r.field ≠ .null := by
      intro heq
      rw [heq] at hfield
      cases hfield
    refine hread r.field ?_ ?_
    · simp [JsonValue.orFalsy, hfield]
    · simp [JsonValue.orNull, hne]
  · refine hread r.snake ?_ ?_
    · simp [JsonValue.orFalsy, hfield, JsonValue.falsy]
    · simp [JsonValue.orNull, hfield]

theorem mem_rows_of_imported (h : r ∈ f.imported t) : r ∈ f.rows t := by
  obtain ⟨⟨id, r'⟩, hmem, rfl⟩ := List.mem_map.mp h
  obtain ⟨r'', hr, heq⟩ := List.mem_map.mp (Table.mem_of_get_insertAll ((Table.mem_rows _).mp hmem))
  rw [← (Prod.mk.inj heq).2]
  exact hr

/-- **No number comes twice after an import**, exactly where no row has an empty field beside a number
that is higher than all the scan reads. -/
theorem seeded_iff (hunique : UniqueDeviceNos db) :
    Seeded db f (seedDocCounters db f).1 ↔ ReadsAll db f := by
  constructor
  · rintro hseeded t r hr - - n d rfl hstored himported
    refine (le_seeded.mp (hseeded.raised n d himported)).imp_right ?_
    rintro ⟨t, r', hr', m, hseries, hle⟩
    obtain ⟨g, d', hscanned, hletters, hdevice, heq, rfl⟩ := of_series hseries
    obtain ⟨rfl, hpair⟩ := Prod.mk.inj heq
    obtain ⟨rfl, hperiod⟩ := Prod.mk.inj hpair
    obtain ⟨row, hrow, hno⟩ := of_deviceByNo hdevice
    obtain ⟨row', hrow', hno'⟩ := himported.device
    obtain rfl := Option.some.inj (hrow.symm.trans hrow')
    exact ⟨r', hr', g, hscanned, hletters, hno.symm.trans hno', hperiod.symm, hle⟩
  · intro hreads
    have hkept : ∀ c, db.lastNo c ≤ (seedDocCounters db f).1.lastNo c := fun c => le_seeded.mpr (.inl le_rfl)
    have hraised : ∀ n d, ImportedNo db f n d →
        n.seq ≤ (seedDocCounters db f).1.lastNo (d, n.docType, n.period) := by
      intro n d himported
      obtain ⟨r, hr, hstored⟩ := himported.stored
      obtain ⟨row, hrow, hno⟩ := himported.device
      have hdevice : deviceByNo db n.deviceNo = some d := hno ▸ deviceByNo_eq hunique hrow
      have hread : ∀ r' ∈ f.rows n.docType, ∀ g, r'.scanned = some g → g.letters = n.docType.docPrefix →
          g.deviceNo = n.deviceNo → g.period = n.period → n.seq ≤ g.seq →
          n.seq ≤ (seedDocCounters db f).1.lastNo (d, n.docType, n.period) := by
        intro r' hr' g hscanned hletters hsame hperiod hle
        refine le_seeded.mpr (.inr ⟨n.docType, r', hr', g.seq, ?_, hle⟩)
        simp [NumberedRow.series, hscanned, hletters, hsame, hdevice, hperiod]
      by_cases hfield : r.field.falsy = true ∧ r.field ≠ .null
      · rcases hreads n.docType r hr hfield.1 hfield.2 n d rfl hstored himported with hle |
          ⟨r', hr', g, hscanned, hletters, hsame, hperiod, hle⟩
        · exact hle.trans (hkept _)
        · exact hread r' hr' g hscanned hletters hsame hperiod hle
      · have hfound : r.field.falsy = false ∨ r.field = .null := by
          rw [not_and_or, Bool.not_eq_true, not_not] at hfield
          exact hfield
        exact hread r (mem_rows_of_imported hr) _ (scanned_of_stored himported.fits hstored hfound) rfl rfl
          rfl le_rfl
    refine ⟨hkept, hraised, fun T _ S hreach e he hissues c k hk => ?_⟩
    have hlt := (document_numbers_in_order hreach).1.beyond e he hissues c k hk
    refine ⟨(hkept c).trans_lt hlt, ?_⟩
    rintro n d himported rfl
    exact (hraised n d himported).trans_lt hlt

/-! ## A file of one bill -/

theorem smallShop_unique : UniqueDeviceNos smallShop := by
  intro d d' row row' h h' _
  have hone : ∀ {d row}, smallShop.devices.get d = some row → d = 1 := by
    intro d row h
    have hmem := smallShop.devices.mem_rows.mpr h
    exact congrArg Prod.fst (List.mem_singleton.mp hmem)
  rw [hone h, hone h']

/-- A bill whose number stands under one of the spellings. -/
def oneBill (field snake : JsonValue) : NumberedStores :=
  ⟨[⟨"b7", field, snake⟩], [], [], [], []⟩

/-- The number is read where the field is not there. -/
theorem seeded_iff_of_oneBill :
    Seeded smallShop (oneBill .null (.str "RC01-2569-10-0042"))
        (seedDocCounters smallShop (oneBill .null (.str "RC01-2569-10-0042"))).1 ↔
      ReadsAll smallShop (oneBill .null (.str "RC01-2569-10-0042")) :=
  seeded_iff smallShop_unique

/-- **A number is issued again.** Where the field is empty, the bill is stored with the number beside it,
which the scan does not read. -/
theorem number_unread : UniqueDeviceNos smallShop ∧
    ¬Seeded smallShop (oneBill (.str "") (.str "RC01-2569-10-0042"))
      (seedDocCounters smallShop (oneBill (.str "") (.str "RC01-2569-10-0042"))).1 := by
  refine ⟨smallShop_unique, fun h => ?_⟩
  have hread := h.raised ⟨.receipt, 1, 256910, 42⟩ 1
    { fits := ⟨by decide, by decide, by decide⟩
      stored := ⟨_, List.mem_singleton_self _, by decide +kernel⟩
      device := ⟨_, rfl, rfl⟩ }
  exact absurd hread (by decide +kernel)

end Import
