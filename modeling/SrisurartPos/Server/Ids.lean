import SrisurartPos.Bytes
import Mathlib.Data.Prod.Lex

/-! # Ids

A process's ids are UUIDs of version 7: the clock's milliseconds, a counter within one millisecond
and random bits. The process keeps the last milliseconds it used, so a clock that stands still or
goes back counts on from there, and a counter that overflows borrows the next millisecond. -/

namespace Server.Ids

open Bytes

/-- `lastMs` and `seq` -/
structure Clock where
  lastMs : Nat
  seq : Nat
  seq_le : seq ≤ 0xfff

def Clock.start : Clock := ⟨0, 0, Nat.zero_le _⟩

/-- What one call reads from outside: `Date.now()` and its random bytes. -/
structure Draw where
  now : Int
  counter : UInt16
  bytes : Vector UInt8 16

theorem and_le_max (n : Nat) : n &&& 0x7ff ≤ 0xfff := Nat.le_trans Nat.and_le_right (by decide)

def Clock.tick (c : Clock) (d : Draw) : Clock :=
  if d.now > c.lastMs then
    ⟨d.now.toNat, d.counter.toNat &&& 0x7ff, and_le_max _⟩
  else if h : c.seq + 1 > 0xfff then
    ⟨c.lastMs + 1, 0, Nat.zero_le _⟩
  else
    ⟨c.lastMs, c.seq + 1, Nat.not_lt.mp h⟩

/-- `writeUIntBE`, which throws at a value that does not fit -/
def writeUIntBE (b : List UInt8) (value offset byteLength : Nat) : Option (List UInt8) :=
  if value < 256 ^ byteLength then
    some (b.take offset ++ bigEndian byteLength value ++ b.drop (offset + byteLength))
  else
    none

/-- `h.slice(i, j)` -/
def slice (h : List Char) (i j : Nat) : List Char := (h.take j).drop i

/-- The text `8-4-4-4-12` of hex letters. -/
def dashed (h : List Char) : List Char :=
  slice h 0 8 ++ '-' :: slice h 8 12 ++ '-' :: slice h 12 16 ++ '-' :: slice h 16 20 ++
    '-' :: h.drop 20

/-- The id, where the milliseconds still fit in their 48 bits, and the clock it leaves. -/
def newUuid (c : Clock) (d : Draw) : Option String × Clock :=
  let c := c.tick d
  let id := do
    let b ← writeUIntBE d.bytes.toList c.lastMs 0 6
    let b := b.set 6 (UInt8.ofNat (0x70 ||| (c.seq >>> 8)))
    let b := b.set 7 (UInt8.ofNat (c.seq &&& 0xff))
    let b := b.set 8 ((b.getD 8 0 &&& 0x3f) ||| 0x80)
    return String.ofList (dashed (hex b))
  (id, c)

/-- The ids that a sequence of calls returns. -/
def minted : Clock → List Draw → List String
  | _, []      => []
  | c, d :: ds => (newUuid c d).1.toList ++ minted (newUuid c d).2 ds

/-! ## Well formed ids -/

/-- `UUID_RE`, a letter class at a time -/
def uuidRe : List (Char → Bool) :=
  List.replicate 8 IsHexLetter ++ (· == '-') :: List.replicate 4 IsHexLetter ++
    (· == '-') :: List.replicate 4 IsHexLetter ++ (· == '-') :: List.replicate 4 IsHexLetter ++
    (· == '-') :: List.replicate 12 IsHexLetter

/-- Every letter is of its class, and there are no more. -/
def matchesAll : List (Char → Bool) → List Char → Bool
  | [], []           => true
  | p :: ps, c :: cs => p c && matchesAll ps cs
  | _, _             => false

def isUuid (id : String) : Bool := matchesAll uuidRe id.toList

/-- A UUID whose version is 7 and whose variant is `10`. -/
structure IsV7 (id : String) : Prop where
  isUuid : isUuid id = true
  version : id.toList[14]? = some '7'
  variant : ∃ c ∈ ['8', '9', 'a', 'b'], id.toList[19]? = some c

/-! ## What a call returns -/

/-- The bytes that the clock decides. -/
def Clock.stem (c : Clock) : List UInt8 :=
  bigEndian 6 c.lastMs ++ [UInt8.ofNat (0x70 ||| (c.seq >>> 8)), UInt8.ofNat (c.seq &&& 0xff)]

/-- The bytes behind: the variant's two bits and the random ones. -/
def Draw.rest (d : Draw) : List UInt8 :=
  ((d.bytes[8] &&& 0x3f) ||| 0x80) :: d.bytes.toList.drop 9

def idText (bs : List UInt8) : String := String.ofList (dashed (hex bs))

@[simp] theorem length_stem (c : Clock) : c.stem.length = 8 := by simp [Clock.stem]

@[simp] theorem length_rest (d : Draw) : d.rest.length = 8 := by simp [Draw.rest]

@[simp] theorem newUuid_clock (c : Clock) (d : Draw) : (newUuid c d).2 = c.tick d := rfl

/-- The buffer with the stem written over its first eight bytes. -/
theorem written_eq (d : Draw) {ms : List UInt8} (hms : ms.length = 6) (v w x : UInt8) :
    (((ms ++ d.bytes.toList.drop 6).set 6 v).set 7 w).set 8 x =
      ms ++ [v, w] ++ x :: d.bytes.toList.drop 9 := by
  have hlen : d.bytes.toList.length = 16 := by simp
  have hdrop : d.bytes.toList.drop 6 =
      d.bytes.toList[6] :: d.bytes.toList[7] :: d.bytes.toList[8] :: d.bytes.toList.drop 9 := by
    rw [List.drop_eq_getElem_cons (by omega), List.drop_eq_getElem_cons (by omega),
      List.drop_eq_getElem_cons (by omega)]
  rw [hdrop, List.set_append_right _ _ (by omega), List.set_append_right _ _ (by omega),
    List.set_append_right _ _ (by omega), hms]
  simp

/-- Neither write before it touches the variant's byte. -/
theorem variant_kept (d : Draw) {ms : List UInt8} (hms : ms.length = 6) (v w : UInt8) :
    (((ms ++ d.bytes.toList.drop 6).set 6 v).set 7 w).getD 8 0 = d.bytes[8] := by
  simp [List.getD, hms]

theorem newUuid_id (c : Clock) (d : Draw) :
    (newUuid c d).1 =
      if (c.tick d).lastMs < 256 ^ 6 then some (idText ((c.tick d).stem ++ d.rest)) else none := by
  have hms := length_bigEndian 6 (c.tick d).lastMs
  unfold newUuid writeUIntBE
  by_cases h : (c.tick d).lastMs < 256 ^ 6
  · simp only [if_pos h, Option.bind_eq_bind, Option.bind_some, List.take_zero, List.nil_append,
      Nat.zero_add, variant_kept d hms, written_eq d hms]
    rfl
  · simp only [if_neg h]
    rfl

/-! ## Well formed -/

/-- Patterns that stand one after the other match texts that do. -/
theorem matchesAll_append {ps qs : List (Char → Bool)} {cs ds : List Char}
    (hp : matchesAll ps cs = true) (hq : matchesAll qs ds = true) :
    matchesAll (ps ++ qs) (cs ++ ds) = true := by
  induction ps generalizing cs with
  | nil =>
      cases cs with
      | nil => exact hq
      | cons c cs => cases hp
  | cons p ps ih =>
      cases cs with
      | nil => cases hp
      | cons c cs =>
          simp only [matchesAll, List.cons_append, Bool.and_eq_true] at hp ⊢
          exact ⟨hp.1, ih hp.2⟩

theorem matchesAll_replicate {p : Char → Bool} {cs : List Char} {n : Nat} (hlen : cs.length = n)
    (h : ∀ c ∈ cs, p c = true) : matchesAll (List.replicate n p) cs = true := by
  induction cs generalizing n with
  | nil =>
      subst hlen
      rfl
  | cons c cs ih =>
      subst hlen
      simp only [List.length_cons, List.replicate_succ, matchesAll, Bool.and_eq_true]
      exact ⟨h c List.mem_cons_self, ih rfl fun d hd => h d (List.mem_cons_of_mem c hd)⟩

theorem length_slice {h : List Char} {i j : Nat} (hj : j ≤ h.length) : (slice h i j).length = j - i := by
  rw [slice, List.length_drop, List.length_take_of_le hj]

theorem mem_of_mem_slice {h : List Char} {i j : Nat} {c : Char} (hc : c ∈ slice h i j) : c ∈ h :=
  List.mem_of_mem_take (List.mem_of_mem_drop hc)

/-- Thirty-two hex letters with dashes between them. -/
theorem matchesAll_dashed {h : List Char} (hlen : h.length = 32) (hhex : ∀ c ∈ h, IsHexLetter c = true) :
    matchesAll uuidRe (dashed h) = true := by
  have hgroup : ∀ {cs : List Char} {n}, (∀ c ∈ cs, c ∈ h) → cs.length = n →
      matchesAll (List.replicate n IsHexLetter) cs = true :=
    fun hmem hn => matchesAll_replicate hn fun c hc => hhex c (hmem c hc)
  have hdash : ∀ {cs : List Char} {n}, (∀ c ∈ cs, c ∈ h) → cs.length = n →
      matchesAll ((· == '-') :: List.replicate n IsHexLetter) ('-' :: cs) = true :=
    fun hmem hn => by simp [matchesAll, hgroup hmem hn]
  have hslice : ∀ {i j}, ∀ c ∈ slice h i j, c ∈ h := fun c hc => mem_of_mem_slice hc
  unfold uuidRe dashed
  refine matchesAll_append (matchesAll_append (matchesAll_append (matchesAll_append ?_ ?_) ?_) ?_) ?_
  · exact hgroup hslice (length_slice (by omega))
  · exact hdash hslice (length_slice (by omega))
  · exact hdash hslice (length_slice (by omega))
  · exact hdash hslice (length_slice (by omega))
  · exact hdash (fun c hc => List.mem_of_mem_drop hc) (by rw [List.length_drop, hlen])

/-- The letters at the places of the version and of the variant. -/
theorem getElem?_dashed {h : List Char} (hlen : h.length = 32) :
    (dashed h)[14]? = h[12]? ∧ (dashed h)[19]? = h[16]? := by
  constructor <;>
    simp [dashed, slice, hlen]

theorem version_byte (c : Clock) : (UInt8.ofNat (0x70 ||| (c.seq >>> 8))).toNat / 16 = 7 := by
  have hlt : c.seq >>> 8 < 2 ^ 4 := by
    have := c.seq_le
    rw [Nat.shiftRight_eq_div_pow]
    omega
  have hor : 0x70 ||| (c.seq >>> 8) = 0x70 + c.seq >>> 8 := (Nat.two_pow_add_eq_or_of_lt hlt 7).symm
  rw [hor, UInt8.toNat_ofNat']
  omega

theorem variant_byte (b : UInt8) :
    (((b &&& 0x3f) ||| 0x80).toNat / 16).digitChar ∈ ['8', '9', 'a', 'b'] := by
  have hlt : b.toNat &&& 63 < 2 ^ 7 := Nat.lt_of_le_of_lt Nat.and_le_right (by decide)
  have hor : b.toNat &&& 63 ||| 128 = 128 + (b.toNat &&& 63) := by
    rw [Nat.or_comm]
    exact (Nat.two_pow_add_eq_or_of_lt hlt 1).symm
  have hle : b.toNat &&& 63 ≤ 63 := Nat.and_le_right
  have hmem : ∀ n, n ≤ 63 → ((128 + n) / 16).digitChar ∈ ['8', '9', 'a', 'b'] := by decide
  rw [UInt8.toNat_or, UInt8.toNat_and]
  exact hor ▸ hmem _ hle

/-- Every id that is drawn is a uuid of version 7. -/
theorem isV7_idText (c : Clock) (d : Draw) : IsV7 (idText (c.stem ++ d.rest)) := by
  have hlen : (hex (c.stem ++ d.rest)).length = 32 := by simp
  have htext : (idText (c.stem ++ d.rest)).toList = dashed (hex (c.stem ++ d.rest)) :=
    String.toList_ofList
  have hstem : (c.stem ++ d.rest)[6]? = some (UInt8.ofNat (0x70 ||| (c.seq >>> 8))) := by
    simp [Clock.stem]
  have hrest : (c.stem ++ d.rest)[8]? = some ((d.bytes[8] &&& 0x3f) ||| 0x80) := by
    simp [Draw.rest]
  obtain ⟨hversion, hvariant⟩ := getElem?_dashed hlen
  constructor
  · rw [isUuid, htext]
    exact matchesAll_dashed hlen isHexLetter_of_mem_hex
  · rw [htext, hversion, getElem?_hex _ 6, hstem, Option.map_some, version_byte]
    rfl
  · rw [htext, hvariant, getElem?_hex _ 8, hrest]
    exact ⟨_, variant_byte _, rfl⟩

/-! ## Order -/

/-- Later milliseconds, or a later count within the same ones. -/
def Clock.Before (c k : Clock) : Prop := toLex (c.lastMs, c.seq) < toLex (k.lastMs, k.seq)

theorem Clock.before_iff {c k : Clock} :
    c.Before k ↔ c.lastMs < k.lastMs ∨ c.lastMs = k.lastMs ∧ c.seq < k.seq :=
  Prod.Lex.toLex_lt_toLex

theorem Clock.Before.trans {c k l : Clock} (h : c.Before k) (h' : k.Before l) : c.Before l :=
  lt_trans h h'

/-- However the clock reads, a call moves the state forward. -/
theorem Clock.before_tick (c : Clock) (d : Draw) : c.Before (c.tick d) := by
  rw [before_iff]
  unfold Clock.tick
  split
  · -- the clock went forward
    left
    simp only
    omega
  · split
    · -- the counter ran over and borrows a millisecond
      left
      simp
    · right
      simp

/-- The stems of the clock rise, as long as its milliseconds fit in their bytes. -/
theorem Clock.stem_lt {c k : Clock} (h : c.Before k) (hk : k.lastMs < 256 ^ 6) : c.stem < k.stem := by
  have hbyte : ∀ {x : Clock}, 0x70 ||| (x.seq >>> 8) = 0x70 + x.seq / 256 := by
    intro x
    have hlt : x.seq >>> 8 < 2 ^ 4 := by
      have := x.seq_le
      rw [Nat.shiftRight_eq_div_pow]
      omega
    rw [← (Nat.two_pow_add_eq_or_of_lt hlt 7 : _ = 0x70 ||| (x.seq >>> 8)), Nat.shiftRight_eq_div_pow]
  have hlow : ∀ {x : Clock}, x.seq &&& 0xff = x.seq % 256 := Nat.and_two_pow_sub_one_eq_mod _ 8
  have hc := c.seq_le
  have hk' := k.seq_le
  rcases before_iff.mp h with hms | ⟨hms, hseq⟩
  · exact append_lt_append (bigEndian_lt hms hk) (by simp) _ _
  · rw [stem, stem, hms, hbyte, hbyte, hlow, hlow]
    refine List.append_left_lt ?_
    rw [List.cons_lt_cons_iff, List.cons_lt_cons_iff, UInt8.lt_iff_toNat_lt, UInt8.lt_iff_toNat_lt,
      ← UInt8.toNat_inj]
    simp only [UInt8.toNat_ofNat']
    omega

/-- The dashes stand at fixed places, so they keep the order. -/
theorem dashed_lt {g h : List Char} (hlt : g < h) (hlen : g.length = h.length) : dashed g < dashed h := by
  have hform : ∀ h, dashed h = h.take 8 ++ '-' :: ((h.drop 8).take 4 ++ '-' ::
      (((h.drop 8).drop 4).take 4 ++ '-' :: ((((h.drop 8).drop 4).drop 4).take 4 ++ '-' ::
        (((h.drop 8).drop 4).drop 4).drop 4))) := by
    intro h
    simp [dashed, slice, List.drop_take, List.drop_drop]
  rw [hform g, hform h]
  refine interpose_lt_interpose (f := fun h => h.take 4 ++ '-' :: ((h.drop 4).take 4 ++ '-' ::
    (((h.drop 4).drop 4).take 4 ++ '-' :: ((h.drop 4).drop 4).drop 4))) ?_ 8 '-' hlen hlt
  intro us vs hl h
  refine interpose_lt_interpose (f := fun h => h.take 4 ++ '-' :: ((h.drop 4).take 4 ++ '-' ::
    (h.drop 4).drop 4)) ?_ 4 '-' hl h
  intro us vs hl h
  refine interpose_lt_interpose (f := fun h => h.take 4 ++ '-' :: h.drop 4) ?_ 4 '-' hl h
  intro us vs hl h
  exact interpose_lt_interpose (f := id) (fun _ h => h) 4 '-' hl h

theorem idText_lt {c k : Clock} (h : c.Before k) (hk : k.lastMs < 256 ^ 6) (d e : Draw) :
    idText (c.stem ++ d.rest) < idText (k.stem ++ e.rest) := by
  have hbytes := append_lt_append (Clock.stem_lt h hk) (by simp) d.rest e.rest
  have hhex := hex_lt hbytes (by simp)
  rw [idText, idText, String.lt_iff, String.toList_ofList, String.toList_ofList]
  exact dashed_lt hhex (by simp)

/-! ## Runs -/

/-- An id of a clock after `c`. -/
def After (c : Clock) (id : String) : Prop :=
  ∃ k d, c.Before k ∧ k.lastMs < 256 ^ 6 ∧ id = idText (k.stem ++ Draw.rest d)

theorem After.mono {c k : Clock} {id : String} (h : c.Before k) : After k id → After c id := by
  intro ⟨l, d, hl, hms, hid⟩
  exact ⟨l, d, h.trans hl, hms, hid⟩

theorem after_newUuid {c : Clock} {d : Draw} {id : String} (h : (newUuid c d).1 = some id) :
    (c.tick d).lastMs < 256 ^ 6 ∧ id = idText ((c.tick d).stem ++ d.rest) := by
  rw [newUuid_id] at h
  split at h
  case isTrue hms => exact ⟨hms, (Option.some.inj h).symm⟩
  case isFalse => cases h

theorem after_minted {c : Clock} {ds : List Draw} : ∀ id ∈ minted c ds, After c id := by
  induction ds generalizing c with
  | nil => exact fun _ h => absurd h List.not_mem_nil
  | cons d ds ih =>
      intro id hid
      rcases List.mem_append.mp hid with hid | hid
      · obtain ⟨hms, hid⟩ := after_newUuid (Option.mem_toList.mp hid)
        exact ⟨c.tick d, d, c.before_tick d, hms, hid⟩
      · exact (ih id hid).mono (c.before_tick d)

/-- Each id is less than every id drawn after it. -/
theorem minted_pairwise (c : Clock) (ds : List Draw) : (minted c ds).Pairwise (· < ·) := by
  induction ds generalizing c with
  | nil => exact List.Pairwise.nil
  | cons d ds ih =>
      refine List.pairwise_append.mpr ⟨?_, ih _, ?_⟩
      · cases (newUuid c d).1 with
        | none => exact List.Pairwise.nil
        | some id => exact List.pairwise_singleton _ id
      · intro id hid later hlater
        obtain ⟨-, rfl⟩ := after_newUuid (Option.mem_toList.mp hid)
        obtain ⟨k, e, hk, hms, rfl⟩ := after_minted later hlater
        exact idText_lt hk hms d e

/-- While the clock stays below `2 ^ 48` milliseconds, with a millisecond to spare for every call,
every call returns an id. -/
theorem length_minted {c : Clock} {ds : List Draw} {top : Nat} (htop : top + ds.length ≤ 256 ^ 6)
    (hc : c.lastMs < top) (hds : ∀ d ∈ ds, d.now < top) : (minted c ds).length = ds.length := by
  induction ds generalizing c top with
  | nil => rfl
  | cons d ds ih =>
      have hd := hds d List.mem_cons_self
      have htick : (c.tick d).lastMs < top + 1 := by
        unfold Clock.tick
        split
        · simp only
          omega
        · split
          · simp only
            omega
          · simp only
            omega
      rw [List.length_cons] at htop
      have htop' : top + 1 + ds.length ≤ 256 ^ 6 := by omega
      have hrest := ih htop' htick fun e he => by
        have := hds e (List.mem_cons_of_mem d he)
        omega
      rw [minted, List.length_append, newUuid_id, if_pos (by omega), newUuid_clock, hrest]
      exact Nat.add_comm _ _

/-- The ids of one process rise strictly, whatever its clock reads, and each is a UUID of
version 7. Every call returns one, until the clock comes near `2 ^ 48` milliseconds. -/
theorem minted_ids_rise (calls : List Draw) :
    (minted Clock.start calls).Pairwise (· < ·) ∧ (∀ id ∈ minted Clock.start calls, IsV7 id) ∧
      ∀ top : Nat, 0 < top → top + calls.length ≤ 256 ^ 6 → (∀ d ∈ calls, d.now < top) →
        (minted Clock.start calls).length = calls.length := by
  refine ⟨minted_pairwise _ _, fun id hid => ?_, fun top hpos htop hcalls => ?_⟩
  · obtain ⟨k, d, -, -, rfl⟩ := after_minted id hid
    exact isV7_idText k d
  · exact length_minted htop hpos hcalls

end Server.Ids
