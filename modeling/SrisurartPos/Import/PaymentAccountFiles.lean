import SrisurartPos.Import.PaymentAccounts

/-! # A file of payment accounts is written as a whole or not at all

What the pre-flight lets through the table lets through, and an export is let through. -/

namespace Import.PaymentAccounts

open Server.PaymentAccounts Dyn Server.Ids

variable {D : Type} {host : Host D} {a : Object D} {now : Time}

/-! ## The pre-flight, rule by rule -/

theorem problem_eq_nil {c : Prop} [Decidable c] {text : String} : problem c text = [] ↔ ¬c := by
  rw [problem]
  split
  · next h => simp [h]
  · next h => simp [h]

/-- What the pre-flight finds nothing wrong with. -/
structure Sound (host : Host D) (a : Object D) : Prop where
  nickname : (normaliseNickname (get a "nickname")).isSome = true
  bankCode : isBankCode (either a "bankCode" "bank_code") = true
  payee : payeeProblems host a = []
  isDefault : isDefaultProblems (either a "isDefault" "is_default") = []
  sortOrder : sortOrderProblems (either a "sortOrder" "sort_order") = []

theorem rowProblems_eq_nil : rowProblems host a = [] ↔ Sound host a := by
  simp only [rowProblems, List.append_eq_nil_iff, problem_eq_nil]
  constructor
  · rintro ⟨⟨⟨⟨hnickname, hbankCode⟩, hpayee⟩, hisDefault⟩, hsortOrder⟩
    exact ⟨by simpa [Option.isSome_iff_ne_none] using hnickname, by simpa using hbankCode, hpayee, hisDefault,
      hsortOrder⟩
  · rintro ⟨hnickname, hbankCode, hpayee, hisDefault, hsortOrder⟩
    exact ⟨⟨⟨⟨by simpa [Option.isSome_iff_ne_none] using hnickname, by simpa using hbankCode⟩, hpayee⟩, hisDefault⟩,
      hsortOrder⟩

/-- The scan finds nothing where every row is sound and no id comes twice. -/
theorem scan_eq_nil {seen : List String} {l : List (Object D)} :
    scan host seen l = [] ↔
      (∀ a ∈ l, Sound host a) ∧ (l.map (idText host)).Nodup ∧ ∀ a ∈ l, idText host a ∉ seen := by
  induction l generalizing seen with
  | nil => simp [scan]
  | cons a l ih =>
      rw [scan, List.append_eq_nil_iff, List.map_eq_nil_iff, List.append_eq_nil_iff, problem_eq_nil,
        rowProblems_eq_nil, ih, List.forall_mem_cons, List.forall_mem_cons, List.map_cons, List.nodup_cons,
        List.mem_map]
      simp only [List.mem_cons, not_or]
      constructor
      · rintro ⟨⟨hfresh, hsound⟩, hrest, hnodup, hseen⟩
        refine ⟨⟨hsound, hrest⟩, ⟨?_, hnodup⟩, hfresh, fun b hb => (hseen b hb).2⟩
        rintro ⟨b, hb, heq⟩
        exact (hseen b hb).1 heq
      · rintro ⟨⟨hsound, hrest⟩, ⟨hnot, hnodup⟩, hfresh, hseen⟩
        exact ⟨⟨hfresh, hsound⟩, hrest, hnodup, fun b hb => ⟨fun heq => hnot ⟨b, hb, heq⟩, hseen b hb⟩⟩

/-- What the pre-flight lets through, as facts. -/
structure Accepted (host : Host D) (file : Dyn D) : Prop where
  ids : ∀ a ∈ rows file, isUuidValue (get a "id") = true
  sound : ∀ a ∈ rows file, Sound host a
  nodup : ((rows file).map (idText host)).Nodup
  defaults : ((rows file).filter isActiveDefault).length ≤ 1
  active : ((rows file).filter isActive).length ≤ maxActivePaymentAccounts

theorem accepted_iff {file : Dyn D} :
    planBadIds file = [] ∧ planPaymentAccountViolations host file = [] ↔ Accepted host file := by
  simp only [planBadIds, planPaymentAccountViolations, List.append_eq_nil_iff, List.filter_eq_nil_iff, scan_eq_nil,
    List.length_map, ite_eq_right_iff, reduceCtorEq, imp_false, not_lt, Bool.not_eq_true, Bool.not_eq_false']
  constructor
  · rintro ⟨hids, ⟨⟨hrows, hnodup, -⟩, hdefaults⟩, hactive⟩
    exact ⟨hids, hrows, hnodup, hdefaults, hactive⟩
  · rintro ⟨hids, hrows, hnodup, hdefaults, hactive⟩
    exact ⟨hids, ⟨⟨hrows, hnodup, fun _ _ h => nomatch h⟩, hdefaults⟩, hactive⟩

/-! ## Values -/

theorem lookup_of_get {k s : String} (h : get a k = .text s) : a.lookup k = some (.text s) := by
  rw [Dyn.get] at h
  cases hl : a.lookup k with
  | none => simp [hl] at h
  | some v =>
      rw [hl] at h
      exact congrArg some h

theorem text_of_get {k s : String} (h : get a k = .text s) : host.text (a.lookup k) = s := by
  rw [lookup_of_get h]
  rfl

theorem text_of_either {k k' s : String} (h : either a k k' = .text s) : host.text (coalesce a k k') = s := by
  rw [either] at h
  cases hc : coalesce a k k' with
  | none => simp [hc] at h
  | some v =>
      rw [hc] at h
      rw [show v = .text s from h]
      rfl

theorem isNull_eq_true {v : Dyn D} : v.isNull = true ↔ v = .null := by
  cases v <;> simp [isNull]

theorem idText_of_isUuidValue (h : isUuidValue (get a "id") = true) :
    isUuid (idText host a) = true := by
  cases hid : get a "id" with
  | text s =>
      rw [hid] at h
      rw [idText, text_of_get hid]
      exact h
  | _ =>
      rw [hid] at h
      cases h

/-- A row that is let through is one that a request could have written. -/
theorem Sound.valid (h : Sound host a) (now : Time) : (importRow host now a).Valid where
  nickname := by
    -- what is no text has been refused, here and below
    cases hn : get a "nickname" with
    | text s =>
        have hsome := h.nickname
        obtain ⟨t, ht⟩ := Option.isSome_iff_exists.mp hsome
        rw [hn] at ht
        have hok := isNickname_of_normalise ht
        rw [normaliseNickname] at ht
        split at ht
        · cases ht
        · show IsNickname (JsString.trim (host.text (a.lookup "nickname")))
          rw [text_of_get hn]
          exact Option.some.inj ht ▸ hok
    | _ =>
        have hsome := h.nickname
        rw [hn] at hsome
        cases hsome
  bankCode := by
    cases hb : either a "bankCode" "bank_code" with
    | text s =>
        have hcode := h.bankCode
        rw [hb] at hcode
        show host.text (coalesce a "bankCode" "bank_code") ∈ bankCodes
        rw [text_of_either hb]
        exact of_decide_eq_true hcode
    | _ =>
        have hcode := h.bankCode
        rw [hb] at hcode
        cases hcode
  sortOrder := by
    have horder := h.sortOrder
    show 0 ≤ sortOrderOf (either a "sortOrder" "sort_order") ∧ sortOrderOf (either a "sortOrder" "sort_order") ≤ 10000
    cases hv : either a "sortOrder" "sort_order" with
    | int n =>
        rw [hv, sortOrderProblems, problem_eq_nil, not_not] at horder
        exact horder
    -- an order that is not given is 0
    | _ => exact ⟨Int.le_refl 0, (by decide : (0 : Int) ≤ 10000)⟩
  payee := by
    have hpayee := h.payee
    rw [payeeProblems] at hpayee
    cases hkind : kindOf (get a "kind") with
    | none =>
        rw [hkind] at hpayee
        cases hpayee
    | some kind =>
        obtain ⟨htext, hmem⟩ := kindOf_eq_some hkind
        have hk : host.text (a.lookup "kind") = kind := text_of_get htext
        rw [hkind] at hpayee
        simp only at hpayee
        split at hpayee
        -- a PromptPay account carries a number and no picture
        · next hpromptpay =>
            rw [List.append_eq_nil_iff, problem_eq_nil] at hpayee
            obtain ⟨id, hid⟩ := Option.ne_none_iff_exists'.mp fun hnone =>
              hpayee.1 (Option.isNone_iff_eq_none.mpr hnone)
            obtain ⟨htext, hre⟩ := promptPayIdOf_eq_some hid
            refine ⟨.promptpay id, hre, hk.trans hpromptpay, ?_, ?_, ?_⟩
            · simp only [importRow, hk, hpromptpay, if_true, text_of_either htext]
            · simp [importRow, hk, hpromptpay]
            · simp [importRow, hk, hpromptpay]
        -- of the two kinds the other one is a picture
        · next hnot =>
            have himage : kind = "image" := by simpa [paymentAccountKinds, hnot] using hmem
            rw [List.append_eq_nil_iff, problem_eq_nil] at hpayee
            have hdecode := hpayee.2
            rw [imageProblems] at hdecode
            split at hdecode
            · cases hdecode
            · next image hok =>
                obtain ⟨hqr, hmime, s, hs, hbytes⟩ := decodeQrImage_eq_ok hok
                refine ⟨.image image, hqr, hk.trans himage, ?_, ?_, ?_⟩
                · simp [importRow, hk, himage]
                · simp only [importRow, hk, himage, if_true, text_of_either hs, hbytes]
                · simp only [importRow, hk, himage, if_true, text_of_either hmime]
  deleted hactive := by
    simp only [AccountRow.active] at hactive
    simp only [importRow] at hactive ⊢
    rw [hactive, Bool.false_and]

theorem active_importRow (host : Host D) (now : Time) (a : Object D) :
    (importRow host now a).active = isActive a := by
  simp only [AccountRow.active, importRow]
  cases isActive a with
  | true => rfl
  | false => rfl

theorem theDefault_importRow (host : Host D) (now : Time) (a : Object D) :
    (importRow host now a).theDefault = isActiveDefault a := by
  simp only [AccountRow.theDefault, isActiveDefault, AccountRow.active, importRow]
  cases isActive a with
  | true => simp
  | false => simp

/-! ## The writer -/

/-- The row of an object, under its id. -/
def entry (host : Host D) (now : Time) (a : Object D) : String × AccountRow := (idText host a, importRow host now a)

/-- Rows that the table takes one after the other, on top of `t`. -/
structure Storable (host : Host D) (now : Time) (t : Table String AccountRow) (os : List (Object D)) : Prop where
  uuid : ∀ a ∈ os, isUuid (idText host a) = true
  checks : ∀ a ∈ os, (importRow host now a).checks = true
  nodup : (os.map (idText host)).Nodup
  free : ∀ a ∈ os, t.get (idText host a) = none
  defaults : os.Pairwise fun a b => isActiveDefault a = true → isActiveDefault b = true → False
  default : ∀ a ∈ os, isActiveDefault a = true → ∀ e ∈ t.rows, e.2.theDefault = false

section
variable {t : Table String AccountRow} {os : List (Object D)}

/-- The first of rows that can be stored is stored. -/
theorem Storable.insertOne (h : Storable host now t (a :: os)) :
    insertOne host now t (.object a) = .ok (t.insert (idText host a) (importRow host now a)) := by
  have huuid := h.uuid a List.mem_cons_self
  have hchecks := h.checks a List.mem_cons_self
  have hfree := h.free a List.mem_cons_self
  have hdefault : ¬ ((importRow host now a).theDefault = true ∧ (t.rows.any fun e => e.2.theDefault) = true) := by
    rintro ⟨hdefault, hany⟩
    obtain ⟨e, he, htheDefault⟩ := List.any_eq_true.mp hany
    rw [h.default a List.mem_cons_self ((theDefault_importRow host now a).symm.trans hdefault) e he] at htheDefault
    cases htheDefault
  simp only [PaymentAccounts.insertOne]
  rw [if_neg (by simp [huuid]), if_neg (by simp [hchecks]), if_neg (by simp [hfree]), if_neg hdefault]

/-- And the others can be stored after it. -/
theorem Storable.tail (h : Storable host now t (a :: os)) :
    Storable host now (t.insert (idText host a) (importRow host now a)) os where
  uuid b hb := h.uuid b (List.mem_cons_of_mem a hb)
  checks b hb := h.checks b (List.mem_cons_of_mem a hb)
  nodup := (List.nodup_cons.mp h.nodup).2
  free b hb := by
    have hne : idText host b ≠ idText host a := fun heq =>
      (List.nodup_cons.mp h.nodup).1 (heq ▸ List.mem_map_of_mem hb)
    rw [Table.get_insert_ne t hne, h.free b (List.mem_cons_of_mem a hb)]
  defaults := (List.pairwise_cons.mp h.defaults).2
  default b hb hdefault e he := by
    rw [Table.rows_insert (h.free a List.mem_cons_self), List.mem_append, List.mem_singleton] at he
    rcases he with he | rfl
    · exact h.default b (List.mem_cons_of_mem a hb) hdefault e he
    · have hnot := (List.pairwise_cons.mp h.defaults).1 b hb
      rw [theDefault_importRow]
      by_contra hcon
      exact hnot (by simpa using hcon) hdefault

/-- Objects are stored, each of them; what is no object ends the transaction, and by no constraint. -/
theorem foldlM_insertOne {l : List (Dyn D)} (h : Storable host now t (rows (.array l))) :
    (∃ t', l.foldlM (insertOne host now) t = .ok t' ∧ t'.rows = t.rows ++ (rows (.array l)).map (entry host now) ∧
        ∀ v ∈ l, ∃ o, v = .object o) ∨
      ∃ e, l.foldlM (insertOne host now) t = .error e ∧ (e = .typeError ∨ e = .invalidText) ∧
        ∃ v ∈ l, ∀ o, v ≠ .object o := by
  induction l generalizing t with
  | nil => exact .inl ⟨t, rfl, (List.append_nil _).symm, fun _ h => nomatch h⟩
  | cons v l ih =>
      cases v with
      | object a =>
          have h : Storable host now t (a :: rows (.array l)) := h
          rw [List.foldlM_cons, h.insertOne]
          rcases ih h.tail with ⟨t', hfold, hrows, hobjects⟩ | ⟨e, hfold, he, v, hv, hnot⟩
          · refine .inl ⟨t', hfold, ?_, List.forall_mem_cons.mpr ⟨⟨a, rfl⟩, hobjects⟩⟩
            rw [hrows, Table.rows_insert (h.free a List.mem_cons_self), List.append_assoc]
            rfl
          · exact .inr ⟨e, hfold, he, v, List.mem_cons_of_mem _ hv, hnot⟩
      | null => exact .inr ⟨.typeError, rfl, .inl rfl, _, List.mem_cons_self, fun _ h => nomatch h⟩
      | _ => exact .inr ⟨.invalidText, rfl, .inr rfl, _, List.mem_cons_self, fun _ h => nomatch h⟩

end

section
variable {file : Dyn D}

/-- The rows of a file that the pre-flight accepts can be stored. -/
theorem Accepted.storable (h : Accepted host file) (now : Time) : Storable host now Table.empty (rows file) where
  uuid a ha := idText_of_isUuidValue (h.ids a ha)
  checks a ha := ((h.sound a ha).valid now).checks
  nodup := h.nodup
  free _ _ := rfl
  defaults := by
    rw [← List.pairwise_filter]
    have hlen := h.defaults
    cases hf : (rows file).filter isActiveDefault with
    | nil => exact .nil
    | cons a l =>
        rw [hf, List.length_cons] at hlen
        obtain rfl := List.length_eq_zero_iff.mp (by omega : l.length = 0)
        exact List.pairwise_singleton _ _
  default _ _ _ _ he := nomatch he

/-- The shop that the rows of an accepted file make. -/
theorem Accepted.ok (h : Accepted host file) {t : Table String AccountRow}
    (ht : t.rows = (rows file).map (entry host now)) (audit : List AuditRow) : Db.Ok ⟨t, audit⟩ := by
  have hentry : ∀ id r, t.get id = some r → ∃ a ∈ rows file, idText host a = id ∧ importRow host now a = r := by
    intro id r hget
    have hmem := t.mem_rows.mpr hget
    rw [ht] at hmem
    obtain ⟨a, ha, heq⟩ := List.mem_map.mp hmem
    exact ⟨a, ha, congrArg Prod.fst heq, congrArg Prod.snd heq⟩
  refine ⟨fun id r hget => ?_, fun id r hget => ?_, ?_, fun id r id' r' hget hget' hdefault hdefault' => ?_⟩
  · obtain ⟨a, ha, rfl, -⟩ := hentry id r hget
    exact idText_of_isUuidValue (h.ids a ha)
  · obtain ⟨a, ha, -, rfl⟩ := hentry id r hget
    exact (h.sound a ha).valid now
  · have hfilter : (t.rows.filter fun e => e.2.active).length = ((rows file).filter isActive).length := by
      rw [ht, List.filter_map, List.length_map]
      congr 2
      funext a
      exact active_importRow host now a
    rw [activeCount_eq]
    show ((t.rows.filter fun e => e.2.active).length : Int) ≤ maxActivePaymentAccounts
    rw [hfilter]
    exact_mod_cast h.active
  · obtain ⟨a, ha, rfl, rfl⟩ := hentry id r hget
    obtain ⟨b, hb, rfl, rfl⟩ := hentry id' r' hget'
    have hfa : a ∈ (rows file).filter isActiveDefault := by
      refine List.mem_filter.mpr ⟨ha, ?_⟩
      rw [← theDefault_importRow host now, ((h.sound a ha).valid now).theDefault, hdefault]
    have hfb : b ∈ (rows file).filter isActiveDefault := by
      refine List.mem_filter.mpr ⟨hb, ?_⟩
      rw [← theDefault_importRow host now, ((h.sound b hb).valid now).theDefault, hdefault']
    have hlen := h.defaults
    cases hf : (rows file).filter isActiveDefault with
    | nil =>
        rw [hf] at hfa
        cases hfa
    | cons c l =>
        rw [hf, List.length_cons] at hlen
        obtain rfl := List.length_eq_zero_iff.mp (by omega : l.length = 0)
        rw [hf, List.mem_singleton] at hfa hfb
        rw [hfa, hfb]

end

/-! ## The whole of a file -/

/-- The pre-flight finds nothing. -/
def Passes (host : Host D) (file : Dyn D) : Prop := planBadIds file = [] ∧ planPaymentAccountViolations host file = []

section
variable {file : Dyn D} {s s' : Db}

theorem rows_eq_elements (file : Dyn D) : rows file = rows (.array (elements file)) := by
  cases file with
  | array l => rfl
  | _ => rfl

theorem importAccounts_of_passes (h : Passes host file) :
    importAccounts host now s file = writeAccounts host now s file := by
  rw [importAccounts, h.1, h.2]
  rfl

theorem passes_of_ok (h : importAccounts host now s file = .ok s') : Passes host file := by
  rw [importAccounts] at h
  split_ifs at h with hids hviolations
  exact ⟨by simpa using hids, by simpa using hviolations⟩

/-- What the writer does with a file that passes. -/
theorem writeAccounts_of_accepted (now : Time) (hs : s.Ok) (h : Accepted host file) :
    (∃ s', writeAccounts host now s file = .ok s' ∧ s'.Ok ∧ s'.audit = s.audit ∧
        (elements file = [] → s' = s) ∧
        (elements file ≠ [] → s'.accounts.rows = (rows file).map (entry host now)) ∧
        ∀ v ∈ elements file, ∃ o, v = .object o) ∨
      ∃ e, writeAccounts host now s file = .error e ∧ (e = .typeError ∨ e = .invalidText) ∧
        ∃ v ∈ elements file, ∀ o, v ≠ .object o := by
  by_cases hempty : elements file = []
  · refine .inl ⟨s, by simp [writeAccounts, hempty], hs, rfl, fun _ => rfl, fun hne => absurd hempty hne, ?_⟩
    rw [hempty]
    exact fun _ hv => nomatch hv
  · have hwrite : writeAccounts host now s file =
        ((elements file).foldlM (insertOne host now) Table.empty).map fun accounts => { s with accounts } := by
      rw [writeAccounts, if_neg (by simpa using hempty)]
    rcases foldlM_insertOne (rows_eq_elements file ▸ h.storable now) with
      ⟨t, hfold, hrows, hobjects⟩ | ⟨e, hfold, he, hnot⟩
    · rw [hfold] at hwrite
      rw [← rows_eq_elements] at hrows
      exact .inl ⟨_, hwrite, h.ok hrows s.audit, rfl, fun heq => absurd heq hempty, fun _ => hrows, hobjects⟩
    · rw [hfold] at hwrite
      exact .inr ⟨e, hwrite, he, hnot⟩

/-- The import of accounts goes through exactly where the pre-flight lets the file pass and it holds objects
alone. -/
theorem importAccounts_ok_iff (hs : s.Ok) : (∃ s', importAccounts host now s file = .ok s') ↔
    Passes host file ∧ ∀ v ∈ elements file, ∃ o, v = .object o := by
  constructor
  · rintro ⟨s', hok⟩
    have hpasses := passes_of_ok hok
    rw [importAccounts_of_passes hpasses] at hok
    rcases writeAccounts_of_accepted now hs (accepted_iff.mp hpasses) with
      ⟨-, -, -, -, -, -, hobjects⟩ | ⟨e, herror, -, -⟩
    · exact ⟨hpasses, hobjects⟩
    · rw [herror] at hok
      cases hok
  · rintro ⟨hpasses, hobjects⟩
    rcases writeAccounts_of_accepted now hs (accepted_iff.mp hpasses) with
      ⟨s', hok, -⟩ | ⟨-, -, -, v, hv, hnot⟩
    · exact ⟨s', (importAccounts_of_passes hpasses).trans hok⟩
    · obtain ⟨o, rfl⟩ := hobjects v hv
      exact absurd rfl (hnot o)

/-- What is written. -/
theorem importAccounts_written {s' : Db} (hs : s.Ok) (hok : importAccounts host now s file = .ok s') :
    s'.Ok ∧ s'.audit = s.audit ∧ (elements file = [] → s' = s) ∧
      (elements file ≠ [] → s'.accounts.rows = (rows file).map (entry host now)) := by
  have hpasses := passes_of_ok hok
  rw [importAccounts_of_passes hpasses] at hok
  rcases writeAccounts_of_accepted now hs (accepted_iff.mp hpasses) with
    ⟨s'', hok', hs', haudit, hempty, hrows, -⟩ | ⟨e, herror, -, -⟩
  · obtain rfl : s'' = s' := Except.ok.inj (hok'.symm.trans hok)
    exact ⟨hs', haudit, hempty, hrows⟩
  · rw [herror] at hok
    cases hok

/-- **A file is written as a whole or not at all.** The import succeeds exactly where the pre-flight finds nothing and
the store holds objects only. Then an empty store leaves the accounts, and of any other the accounts are its rows,
and the shop is one that requests could have made. No constraint of the table refuses a file. -/
theorem import_whole (host : Host D) (now : Time) (file : Dyn D) (hs : s.Ok) :
    ((∃ s', importAccounts host now s file = .ok s') ↔
        Passes host file ∧ ∀ v ∈ elements file, ∃ o, v = .object o) ∧
      (∀ s', importAccounts host now s file = .ok s' → s'.Ok ∧ s'.audit = s.audit ∧ (elements file = [] → s' = s) ∧
        (elements file ≠ [] → s'.accounts.rows = (rows file).map (entry host now))) ∧
      ∀ e, importAccounts host now s file = .error e → e ≠ .checkViolation ∧ e ≠ .uniqueViolation := by
  refine ⟨importAccounts_ok_iff hs, fun s' hok => importAccounts_written hs hok, fun e he => ?_⟩
  by_cases hpasses : Passes host file
  · rw [importAccounts_of_passes hpasses] at he
    rcases writeAccounts_of_accepted now hs (accepted_iff.mp hpasses) with ⟨s', hok, -⟩ | ⟨e', herror, hcause, -⟩
    · rw [hok] at he
      cases he
    · obtain rfl : e' = e := Except.error.inj (herror.symm.trans he)
      rcases hcause with rfl | rfl
      · exact ⟨nofun, nofun⟩
      · exact ⟨nofun, nofun⟩
  · rw [importAccounts] at he
    split_ifs at he with hids hviolations
    · obtain rfl := Except.error.inj he
      exact ⟨nofun, nofun⟩
    · obtain rfl := Except.error.inj he
      exact ⟨nofun, nofun⟩
    · exact absurd ⟨by simpa using hids, by simpa using hviolations⟩ hpasses

end

/-- The times of the runs below. -/
def plainDates : List (Time × String) :=
  [(10, "1970-01-01T00:00:00.010Z"), (20, "1970-01-01T00:00:00.020Z"), (30, "1970-01-01T00:00:00.030Z")]

def plainHost : Host Unit where
  string _ := "null"
  stringify _ := "null"
  date s := (plainDates.find? fun e => e.2 = s).map Prod.fst
  iso t := (plainDates.lookup t).getD ""
  falsy _ := false

def oneAccountFile : Dyn Unit := .array [accountBody idA "Front" "0812345678" true]

theorem import_whole_oneAccountFile : ∃ s', importAccounts plainHost 50 Db.empty oneAccountFile = .ok s' ∧ s'.Ok ∧
    s'.accounts.rows = (rows oneAccountFile).map (entry plainHost 50) := by
  have hwhole := import_whole plainHost 50 oneAccountFile ok_empty
  have hone : elements oneAccountFile = [accountBody idA "Front" "0812345678" true] := rfl
  obtain ⟨s', hok⟩ := hwhole.1.mpr ⟨⟨by decide +kernel, by decide +kernel⟩, by
    rw [hone]
    exact fun v hv => ⟨_, List.mem_singleton.mp hv⟩⟩
  obtain ⟨hs', -, -, hrows⟩ := hwhole.2.1 s' hok
  exact ⟨s', hok, hs', hrows (by simp [hone])⟩

/-! ## An export -/

theorem either_eq (a : Object D) (k k' : String) :
    either a k k' = if (get a k).isNull = true then get a k' else get a k := by
  rw [either, coalesce, given]
  cases (get a k).isNull with
  | true => rfl
  | false => rfl

/-- The second key counts where the first has no value. -/
theorem either_of_null {k k' : String} (h : get a k' = .null) : either a k k' = get a k := by
  rw [either_eq, h]
  split
  · next hnull => exact (isNull_eq_true.mp hnull).symm
  · rfl

theorem coalesce_of_either {k k' s : String} (h : either a k k' = .text s) :
    coalesce a k k' = some (.text s) := by
  rw [either] at h
  cases hc : coalesce a k k' with
  | none => simp [hc] at h
  | some v =>
      rw [hc] at h
      exact congrArg some h

section
variable {id : String} {r : AccountRow}

/-- An exported row as it is read back. -/
structure Reads (host : Host D) (id : String) (r : AccountRow) (a : Object D) : Prop where
  id : get a "id" = .text id
  nickname : get a "nickname" = .text r.nickname
  bankCode : either a "bankCode" "bank_code" = .text r.bankCode
  kind : get a "kind" = .text r.kind
  promptpayId : either a "promptpayId" "promptpay_id" = orNull .text r.promptpayId
  image : either a "imageBase64" "image_base64" = orNull .text (r.image.map imageText)
  mime : either a "imageMime" "image_mime" = orNull .text r.imageMime
  isDefault : either a "isDefault" "is_default" = .bool r.isDefault
  sortOrder : either a "sortOrder" "sort_order" = .int r.sortOrder
  createdAt : either a "createdAt" "created_at" = .text (host.iso r.createdAt)
  deletedAt : either a "deletedAt" "deleted_at" = orNull (fun t => .text (host.iso t)) r.deletedAt

/-- The export of a row reads as the row. -/
theorem reads_accountToJson (host : Host D) (id : String) (r : AccountRow) :
    Reads host id r (accountToJson host id r) := by
  have hnull : ∀ k ∈ ["bank_code", "promptpay_id", "image_base64", "image_mime", "is_default", "sort_order",
      "created_at", "deleted_at"], get (accountToJson host id r) k = .null := by
    intro k hk
    simp only [List.mem_cons, List.not_mem_nil, or_false] at hk
    rcases hk with rfl | rfl | rfl | rfl | rfl | rfl | rfl | rfl <;> simp [accountToJson]
  refine ⟨?_, ?_, ?_, ?_, ?_, ?_, ?_, ?_, ?_, ?_, ?_⟩
  · simp [accountToJson]
  · simp [accountToJson]
  · rw [either_of_null (hnull _ (by simp))]
    simp [accountToJson]
  · simp [accountToJson]
  all_goals
    rw [either_of_null (hnull _ (by simp))]
    simp [accountToJson, orNull]

/-- An object that reads as a valid row passes the pre-flight. -/
theorem Reads.sound (h : Reads host id r a) (hr : r.Valid) : Sound host a where
  nickname := by rw [h.nickname, normaliseNickname_eq_some.mpr hr.nickname, Option.isSome_some]
  bankCode := by
    rw [h.bankCode]
    exact decide_eq_true hr.bankCode
  payee := by
    obtain ⟨payee, hpayee, hpaid⟩ := hr.payee
    cases payee with
    | promptpay number =>
        obtain ⟨hkind, hid, himage, hmime⟩ := hpaid
        have hnumber : promptPayIdOf (.text number : Dyn D) = some number := if_pos hpayee
        have hkindOf : kindOf (.text "promptpay" : Dyn D) = some "promptpay" := rfl
        simp only [payeeProblems, h.kind, h.promptpayId, h.image, h.mime, hkind, hid, himage, hmime, hkindOf, orNull,
          Option.map_some, Option.map_none, Option.getD_some, Option.getD_none, hnumber, if_true]
        rfl
    | image image =>
        obtain ⟨hkind, hid, himage, hmime⟩ := hpaid
        have hdecode := decodeQrImage_encode (D := D) hpayee
        have hkindOf : kindOf (.text "image" : Dyn D) = some "image" := rfl
        have hne : ¬ "image" = "promptpay" := by decide
        simp only [payeeProblems, h.kind, h.promptpayId, h.image, h.mime, hkind, hid, himage, hmime, hkindOf, orNull,
          Option.map_some, Option.map_none, Option.getD_some, Option.getD_none, if_neg hne, imageProblems, imageText,
          hdecode]
        rfl
  isDefault := by
    rw [h.isDefault]
    rfl
  sortOrder := by
    rw [h.sortOrder, sortOrderProblems, problem_eq_nil, not_not]
    exact hr.sortOrder

theorem Reads.isActive (h : Reads host id r a) : isActive a = r.active := by
  rw [PaymentAccounts.isActive, h.deletedAt, AccountRow.active]
  cases r.deletedAt with
  | none => rfl
  | some t => rfl

theorem Reads.isActiveDefault (h : Reads host id r a) (hr : r.Valid) : isActiveDefault a = r.isDefault := by
  rw [PaymentAccounts.isActiveDefault, h.isActive, h.isDefault]
  exact (Bool.and_comm _ _).trans hr.theDefault

/-- A time that went out as a text and came back. -/
def Host.reread (host : Host D) (now t : Time) : Time := parseDate host now (some (.text (host.iso t)))

/-- What comes back of a row: all of it, its times as they are read, and the time of the import. -/
def restoredRow (host : Host D) (now : Time) (r : AccountRow) : AccountRow :=
  { r with createdAt := host.reread now r.createdAt, updatedAt := now, deletedAt := r.deletedAt.map (host.reread now) }

/-- An object that reads as a valid row is imported as that row. -/
theorem Reads.importRow (h : Reads host id r a) (hr : r.Valid) (now : Time) :
    importRow host now a = restoredRow host now r := by
  have hdeleted : (if PaymentAccounts.isActive a = true then none
      else some (parseDate host now (coalesce a "deletedAt" "deleted_at"))) = r.deletedAt.map (host.reread now) := by
    rw [h.isActive, AccountRow.active]
    cases hd : r.deletedAt with
    | none => rfl
    | some t =>
        have hread := h.deletedAt
        rw [hd] at hread
        rw [coalesce_of_either hread]
        rfl
  have hdefault : ((r.deletedAt.map (host.reread now)).isNone && r.isDefault) = r.isDefault := by
    rw [Option.isNone_map]
    exact (Bool.and_comm _ _).trans hr.theDefault
  have hnickname : JsString.trim r.nickname = r.nickname := hr.nickname.trimmed
  simp only [PaymentAccounts.importRow, restoredRow, hdeleted, text_of_get h.nickname, text_of_either h.bankCode,
    text_of_get h.kind, h.isDefault, h.sortOrder, coalesce_of_either h.createdAt, sortOrderOf, isTrue, hdefault,
    hnickname]
  obtain ⟨payee, -, hpaid⟩ := hr.payee
  cases payee with
  | promptpay number =>
      obtain ⟨hkind, hid, himage, hmime⟩ := hpaid
      have hread := h.promptpayId
      rw [hid] at hread
      simp [hkind, hid, himage, hmime, text_of_either hread, Host.reread]
  | image image =>
      obtain ⟨hkind, hid, himage, hmime⟩ := hpaid
      have hread := h.image
      have hread' := h.mime
      rw [himage] at hread
      rw [hmime] at hread'
      have hbytes : Base64.decodePlain (Base64.encode image.bytes) = image.bytes := Base64.decodePlain_encode _
      simp [hkind, hid, himage, hmime, text_of_either hread, text_of_either hread', imageText, Host.reread, hbytes]

end

section
variable {s : Db}

theorem rows_exportAccounts (s : Db) :
    rows (exportAccounts host s) = (exportRows s).map fun e => accountToJson host e.1 e.2 := by
  rw [exportAccounts, rows, List.filterMap_map]
  exact congrFun (List.filterMap_eq_map (f := fun e : String × AccountRow => accountToJson host e.1 e.2)) _

theorem mem_exportRows {e : String × AccountRow} : e ∈ exportRows s ↔ s.accounts.get e.1 = some e.2 := by
  rw [exportRows, List.mem_mergeSort]
  exact s.accounts.mem_rows

theorem perm_exportRows (s : Db) : (exportRows s).Perm s.accounts.rows := List.mergeSort_perm _ _

theorem idText_accountToJson (host : Host D) (e : String × AccountRow) :
    idText host (accountToJson host e.1 e.2) = e.1 :=
  text_of_get (reads_accountToJson host e.1 e.2).id

theorem nodup_exportRows (s : Db) : ((exportRows s).map Prod.fst).Nodup :=
  ((perm_exportRows s).map Prod.fst).nodup_iff.mpr s.accounts.nodup

/-- Where no two rows that satisfy `p` have different keys, one row does at most. -/
theorem length_filter_le_one {l : List (String × AccountRow)} {p : String × AccountRow → Bool}
    (hnodup : (l.map Prod.fst).Nodup) (hp : ∀ a ∈ l, ∀ b ∈ l, p a = true → p b = true → a.1 = b.1) :
    (l.filter p).length ≤ 1 := by
  cases hf : l.filter p with
  | nil => exact Nat.zero_le 1
  | cons a rest =>
      cases rest with
      | nil => exact Nat.le_refl 1
      | cons b rest =>
          have ha : a ∈ l.filter p := hf ▸ List.mem_cons_self
          have hb : b ∈ l.filter p := hf ▸ List.mem_cons_of_mem a List.mem_cons_self
          obtain ⟨ha, hpa⟩ := List.mem_filter.mp ha
          obtain ⟨hb, hpb⟩ := List.mem_filter.mp hb
          have hsub := hnodup.sublist ((List.filter_sublist (p := p)).map Prod.fst)
          rw [hf, List.map_cons, List.map_cons, List.nodup_cons] at hsub
          exact absurd (List.mem_cons.mpr (.inl (hp a ha b hb hpa hpb))) hsub.1

/-- An export passes. -/
theorem accepted_export (hs : s.Ok) : Accepted host (exportAccounts host s) := by
  have hread : ∀ a ∈ rows (exportAccounts host s), ∃ e : String × AccountRow, s.accounts.get e.1 = some e.2 ∧
      a = accountToJson host e.1 e.2 := by
    intro a ha
    rw [rows_exportAccounts] at ha
    obtain ⟨e, he, rfl⟩ := List.mem_map.mp ha
    exact ⟨e, mem_exportRows.mp he, rfl⟩
  refine ⟨fun a ha => ?_, fun a ha => ?_, ?_, ?_, ?_⟩
  · obtain ⟨e, he, rfl⟩ := hread a ha
    rw [(reads_accountToJson host e.1 e.2).id]
    exact hs.ids e.1 e.2 he
  · obtain ⟨e, he, rfl⟩ := hread a ha
    exact (reads_accountToJson host e.1 e.2).sound (hs.rows e.1 e.2 he)
  · rw [rows_exportAccounts, List.map_map]
    have hids : (exportRows s).map (idText host ∘ fun e => accountToJson host e.1 e.2) = (exportRows s).map Prod.fst :=
      List.map_congr_left fun e _ => idText_accountToJson host e
    rw [hids]
    exact nodup_exportRows s
  · rw [rows_exportAccounts, List.filter_map, List.length_map]
    refine length_filter_le_one (nodup_exportRows s) fun e he e' he' hdefault hdefault' => ?_
    have hget := mem_exportRows.mp he
    have hget' := mem_exportRows.mp he'
    rw [Function.comp_apply, (reads_accountToJson host e.1 e.2).isActiveDefault (hs.rows _ _ hget)] at hdefault
    rw [Function.comp_apply, (reads_accountToJson host e'.1 e'.2).isActiveDefault (hs.rows _ _ hget')] at hdefault'
    exact hs.default _ _ _ _ hget hget' hdefault hdefault'
  · have hactive := hs.active
    rw [activeCount_eq] at hactive
    rw [rows_exportAccounts, List.filter_map, List.length_map]
    have hfilter : (exportRows s).filter (isActive ∘ fun e => accountToJson host e.1 e.2) =
        (exportRows s).filter fun e => e.2.active :=
      List.filter_congr fun e _ => (reads_accountToJson host e.1 e.2).isActive
    rw [hfilter, ((perm_exportRows s).filter _).length_eq]
    exact_mod_cast hactive

/-- **A shop's accounts come back from its own file.** The export of any state that requests lead to passes, and
importing it into any shop leaves the accounts of the exported one, deleted or not, with what the rules judge and
who is the default; where there are none, the shop keeps its own. -/
theorem restore_accounts (host : Host D) (now : Time) {T : Type} [DecidableEq T] {s₀ t : Db} {S : System D T}
    (h₀ : s₀.Ok) (ht : t.Ok) (h : Txn.Reachable program s₀ S) :
    ∃ t', importAccounts host now t (exportAccounts host S.db) = .ok t' ∧ t'.audit = t.audit ∧
      (S.db.accounts.rows = [] → t' = t) ∧
      (S.db.accounts.rows ≠ [] →
        ∀ id, t'.accounts.get id = (S.db.accounts.get id).map (restoredRow host now)) := by
  have hs := (inv_of_reachable h₀ h).ok
  have hpasses : Passes host (exportAccounts host S.db) := accepted_iff.mpr (accepted_export hs)
  obtain ⟨t', hok⟩ := (importAccounts_ok_iff ht).mpr ⟨hpasses, by
    intro v hv
    obtain ⟨e, -, rfl⟩ := List.mem_map.mp hv
    exact ⟨_, rfl⟩⟩
  obtain ⟨-, haudit, hempty, hrows⟩ := importAccounts_written ht hok
  refine ⟨t', hok, haudit, fun hnil => ?_, fun hne id => ?_⟩
  · refine hempty ?_
    have hperm := perm_exportRows S.db
    rw [hnil, List.perm_nil] at hperm
    rw [exportAccounts, hperm]
    rfl
  · have hlist : elements (exportAccounts host S.db) ≠ [] := by
      intro heq
      have hnil := List.map_eq_nil_iff.mp heq
      have hperm := perm_exportRows S.db
      rw [hnil, List.nil_perm] at hperm
      exact hne hperm
    have hwritten : t'.accounts.rows = (exportRows S.db).map fun e => (e.1, restoredRow host now e.2) := by
      rw [hrows hlist, rows_exportAccounts, List.map_map]
      refine List.map_congr_left fun e he => ?_
      have hread := reads_accountToJson host e.1 e.2
      rw [Function.comp_apply, PaymentAccounts.entry, idText_accountToJson host e,
        hread.importRow (hs.rows _ _ (mem_exportRows.mp he)) now]
    apply Option.ext
    intro r
    rw [← Table.mem_rows, hwritten, List.mem_map, Option.map_eq_some_iff]
    constructor
    · rintro ⟨e, he, heq⟩
      obtain ⟨rfl, rfl⟩ := Prod.mk.inj heq
      exact ⟨e.2, mem_exportRows.mp he, rfl⟩
    · rintro ⟨r₀, hget, rfl⟩
      exact ⟨(id, r₀), mem_exportRows.mpr hget, rfl⟩

theorem restore_accounts_firstDeleted :
    ∃ t', importAccounts plainHost 50 Db.empty
        (exportAccounts plainHost (Txn.rowsOf program (twoAccounts ++ firstDeleted) Db.empty)) = .ok t' ∧
      (t'.accounts.get idA).map AccountRow.deletedAt = some (some 30) ∧
        (t'.accounts.get idB).map AccountRow.isDefault = some true := by
  obtain ⟨S, hreach, hdb⟩ : ∃ S : System Unit Bool, Txn.Reachable program Db.empty S ∧
      S.db = Txn.rowsOf program (twoAccounts ++ firstDeleted) Db.empty := Txn.reachable_rowsOf (by decide +kernel)
  obtain ⟨t', hok, -, -, hget⟩ := restore_accounts plainHost 50 ok_empty ok_empty hreach
  rw [hdb] at hok hget
  have hsome : (Txn.rowsOf program (twoAccounts ++ firstDeleted) Db.empty).accounts.rows ≠ [] := by decide +kernel
  refine ⟨t', hok, ?_, ?_⟩
  · rw [hget hsome]
    decide +kernel
  · rw [hget hsome]
    decide +kernel

end

end Import.PaymentAccounts
