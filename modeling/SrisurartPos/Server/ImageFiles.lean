import Mathlib.Data.List.Basic
import Mathlib.Tactic.Cases

/-! # Image files (`image-store.ts`, `product-images.controller.ts`, `sale-photos.service.ts`)

A picture is two files, named by a hash of what is in them, so rows that show the same picture share
them. An upload writes both before its transaction. Whoever takes a picture off a row, and whoever is
refused one, cleans up: a look whether a row still names the key, another whether the files are fresh,
then the deletion. Each is an await of its own, and no transaction spans them. -/

namespace Server.ImageFiles

/-! ## The rows -/

/-- `productImages` and `salePhotos`, each a volume of its own. -/
inductive ImageStore where
  | productImages
  | salePhotos
  deriving DecidableEq, Repr

/-- The files `<key>_t.webp` and `<key>_p.webp` of a store. -/
structure Image where
  store : ImageStore
  key : String
  deriving DecidableEq, Repr

inductive ImageVariant where
  | t
  | p
  deriving DecidableEq, Repr

/-- Of a product, what its picture depends on. -/
structure ProductRow where
  id : String
  imageKey : Option String
  deleted : Bool
  deriving DecidableEq, Repr

structure SalePhotoRow where
  id : String
  saleId : String
  imageKey : String
  sourceSha256 : String
  deriving DecidableEq, Repr

/-- The committed rows of one shop. -/
structure Db where
  products : List ProductRow
  sales : List String
  photos : List SalePhotoRow
  deriving DecidableEq, Repr

def orphanGraceMs : Int := 10 * 60000

/-- At most this many photos per bill. -/
def maxSalePhotos : Nat := 5

inductive Refusal where
  | productNotFound
  | saleNotFound
  | clientIdReused (table id : String)
  | salePhotoLimit
  deriving DecidableEq, Repr

/-- `setImageIn`, with the previous key that the clean-up after the commit is about. -/
def Db.setImageIn (db : Db) (id : String) (key : Option String) : Except Refusal (Db × Option String) :=
  match db.products.find? fun r => r.id = id ∧ r.deleted = false with
  | none        => .error .productNotFound
  | some locked =>
      let products := db.products.map fun r => if r.id = id then { r with imageKey := key } else r
      .ok ({ db with products }, if locked.imageKey = key then none else locked.imageKey)

def Db.clearImageIn (db : Db) (id : String) : Except Refusal (Db × Option String) := db.setImageIn id none

/-- `attachIn`: a photo id that is there already answers for the same bytes of the same bill alone. -/
def Db.attachIn (db : Db) (saleId photoId key sourceSha256 : String) : Except Refusal Db :=
  if saleId ∉ db.sales then .error .saleNotFound
  else
    match db.photos.find? fun r => r.id = photoId with
    | some row =>
        if row.saleId = saleId ∧ row.sourceSha256 = sourceSha256 then .ok db
        else .error (.clientIdReused "sale_photo" photoId)
    | none =>
        if (db.photos.countP fun r => r.saleId = saleId) ≥ maxSalePhotos then .error .salePhotoLimit
        else .ok { db with photos := db.photos ++ [⟨photoId, saleId, key, sourceSha256⟩] }

/-- `isImageReferencedIn` and `isReferencedIn`. The row of a deleted product still counts. -/
def Db.isReferenced (db : Db) (image : Image) : Bool :=
  match image.store with
  | .productImages => db.products.any fun r => r.imageKey = some image.key
  | .salePhotos    => db.photos.any fun r => r.imageKey = image.key

/-! ## The requests -/

/-- What an upload is for. -/
inductive Target where
  | product (id : String)
  | photo (saleId photoId sourceSha256 : String)
  deriving DecidableEq, Repr

def Target.image : Target → String → Image
  | .product _, key   => ⟨.productImages, key⟩
  | .photo _ _ _, key => ⟨.salePhotos, key⟩

/-- What an upload awaits next: three operations of `writeImageFiles`, then the claimed write.
`created` tells that no preview was there before, `at` when the preview was written. -/
inductive Stage where
  | stat
  | writePreview (created : Bool)
  | writeThumb (created : Bool) (writtenAt : Int)
  | claim (created : Bool) (writtenAt : Int)
  deriving DecidableEq, Repr

/-- A call of `removeImageIfUnreferenced` or `removeIfUnreferenced`. -/
structure CleanUp where
  image : Image
  evenIfFresh : Bool
  deriving DecidableEq, Repr

/-- What a clean-up awaits next. Files that may be fresh are looked at before they are removed, against
the clock that `removeImageFilesIfStale` reads as it starts. -/
inductive CleanStage where
  | check
  | clock
  | stat (variant : ImageVariant) (now : Int)
  | rm (variant : ImageVariant)
  deriving DecidableEq, Repr

inductive Request where
  | upload (target : Target) (key : String) (stage : Stage)
  | clearImage (productId : String)
  | cleanUp (c : CleanUp) (stage : CleanStage) (rest : List CleanUp)
  | over
  deriving DecidableEq, Repr

/-- How the operation that a request awaits turns out. The last two are answers of `runIdempotent`: the
stored one of an earlier request with the key, and that such a request is still in flight. -/
inductive Outcome where
  | done
  | throws
  | replay
  | inFlight
  deriving DecidableEq, Repr

/-- The volumes and the tables. A file is its `mtimeMs`. -/
structure World where
  now : Int
  files : Image → ImageVariant → Option Int
  db : Db

/-- One file as it is written, to a temporary name and renamed, or removed. -/
def World.setFile (w : World) (image : Image) (variant : ImageVariant) (mtime : Option Int) : World :=
  { w with files := fun i v => if i = image ∧ v = variant then mtime else w.files i v }

/-- One clean-up after the other, then the request is over. -/
def cleaning : List CleanUp → Request
  | []        => .over
  | c :: rest => .cleanUp c .check rest

/-- The clean-up of the previous key, which follows the commit. -/
def afterCommit : Option String → List CleanUp
  | none          => []
  | some previous => [⟨⟨.productImages, previous⟩, false⟩]

/-- The write of an upload in its transaction, with the clean-ups that the commit leads to. -/
def Db.write (db : Db) (key : String) : Target → Except Refusal (Db × List CleanUp)
  | .product id => (db.setImageIn id (some key)).map fun (db', previous) => (db', afterCommit previous)
  | .photo saleId photoId sourceSha256 =>
      (db.attachIn saleId photoId key sourceSha256).map fun db' => (db', [])

/-- `settleImage` and `settlePhoto`: the clean-up of the upload's own files comes last. -/
def World.settle (w : World) (target : Target) (key : String) (created : Bool) : Outcome → World × Request
  | .done =>
      match w.db.write key target with
      | .ok (db, hooks) => ({ w with db }, cleaning (hooks ++ [⟨target.image key, created⟩]))
      | .error _        => (w, cleaning [⟨target.image key, created⟩])
  | .throws | .replay => (w, cleaning [⟨target.image key, created⟩])
  | .inFlight         => (w, .over)

/-- `writeImageFiles` comes before anything that would clean up, so a failure leaves what is written. -/
def World.uploadTurn (w : World) (target : Target) (key : String) : Stage → Outcome → World × Request
  | .stat, _ => (w, .upload target key (.writePreview (w.files (target.image key) .p).isNone))
  | .writePreview _, .throws | .writeThumb _ _, .throws => (w, .over)
  | .writePreview created, _ =>
      (w.setFile (target.image key) .p (some w.now), .upload target key (.writeThumb created w.now))
  | .writeThumb created writtenAt, _ =>
      (w.setFile (target.image key) .t (some w.now), .upload target key (.claim created writtenAt))
  | .claim created _, outcome => w.settle target key created outcome

/-- `DELETE /products/:id/image` -/
def World.clearTurn (w : World) (productId : String) : Outcome → World × Request
  | .done =>
      match w.db.clearImageIn productId with
      | .ok (db, previous) => ({ w with db }, cleaning (afterCommit previous))
      | .error _           => (w, .over)
  | .throws | .replay | .inFlight => (w, .over)

/-- `mtimeMs > now - ORPHAN_GRACE_MS`; a file that is not there is nothing to spare. -/
def isFresh (now : Int) : Option Int → Bool
  | none       => false
  | some mtime => mtime > now - orphanGraceMs

def World.cleanUpTurn (w : World) (c : CleanUp) (rest : List CleanUp) :
    CleanStage → Outcome → World × Request
  | .check, .throws | .rm _, .throws => (w, cleaning rest)
  | .check, _ =>
      if w.db.isReferenced c.image = true then (w, cleaning rest)
      else (w, .cleanUp c (if c.evenIfFresh = true then .rm .t else .clock) rest)
  | .clock, _ => (w, .cleanUp c (.stat .t w.now) rest)
  | .stat variant now, _ =>
      if isFresh now (w.files c.image variant) = true then (w, cleaning rest)
      else (w, .cleanUp c (match variant with | .t => .stat .p now | .p => .rm .t) rest)
  | .rm .t, _ => (w.setFile c.image .t none, .cleanUp c (.rm .p) rest)
  | .rm .p, _ => (w.setFile c.image .p none, cleaning rest)

def World.turn (w : World) (outcome : Outcome) : Request → World × Request
  | .upload target key stage => w.uploadTurn target key stage outcome
  | .clearImage productId    => w.clearTurn productId outcome
  | .cleanUp c stage rest    => w.cleanUpTurn c rest stage outcome
  | .over                    => (w, .over)

/-! ## Runs -/

structure Sys where
  world : World
  requests : List Request

/-- What happens next: a request arrives, one of them goes on, one is never heard of again, or time
passes. -/
inductive Move where
  | upload (target : Target) (key : String)
  | clearImage (productId : String)
  | turn (i : Nat) (outcome : Outcome)
  | stop (i : Nat)
  | tick (ms : Nat)
  deriving DecidableEq, Repr

def Sys.move (S : Sys) : Move → Sys
  | .upload target key    => { S with requests := S.requests ++ [.upload target key .stat] }
  | .clearImage productId => { S with requests := S.requests ++ [.clearImage productId] }
  | .turn i outcome =>
      match S.requests[i]? with
      | none   => S
      | some r =>
          let (world, r') := S.world.turn outcome r
          ⟨world, S.requests.set i r'⟩
  | .stop i  => { S with requests := S.requests.set i .over }
  | .tick ms => { S with world := { S.world with now := S.world.now + ms } }

def Sys.run (S : Sys) (moves : List Move) : Sys := moves.foldl Sys.move S

/-! ## What the requests know of each other's files -/

/-- The image whose preview an upload has written, which its transaction has yet to decide on. -/
def Request.written : Request → Option (Image × Int)
  | .upload target key (.writeThumb _ writtenAt) => some (target.image key, writtenAt)
  | .upload target key (.claim _ writtenAt)      => some (target.image key, writtenAt)
  | _                                            => none

/-- The image whose files are being removed. -/
def Request.removes : Request → Option Image
  | .cleanUp c (.rm _) _ => some c.image
  | _                    => none

def Undecided (rs : List Request) (image : Image) : Prop :=
  ∃ r ∈ rs, r.written.map Prod.fst = some image

def Removing (rs : List Request) (image : Image) : Prop := ∃ r ∈ rs, r.removes = some image

instance {rs : List Request} {image : Image} : Decidable (Undecided rs image) :=
  inferInstanceAs (Decidable (∃ r ∈ rs, _))

instance {rs : List Request} {image : Image} : Decidable (Removing rs image) :=
  inferInstanceAs (Decidable (∃ r ∈ rs, _))

/-- Every upload that has written its preview is still within the grace period. -/
def Sys.Timely (S : Sys) : Prop :=
  ∀ r ∈ S.requests, ∀ x ∈ r.written, S.world.now < x.2 + orphanGraceMs

instance {S : Sys} : Decidable S.Timely := inferInstanceAs (Decidable (∀ r ∈ S.requests, _))

/-- What the files stand and fall with: no upload writes a file of an image while its files are being
removed; no clean-up, which has found its image on no row, reads the clock when the image is on one by
now and its files are a grace period old; and none starts to remove at once what another upload has
written and not settled. -/
def Sys.Gives (S : Sys) : Request → Prop
  | .upload target key (.writePreview _) => ¬Removing S.requests (target.image key)
  | .upload target key (.writeThumb _ _) => ¬Removing S.requests (target.image key)
  | .cleanUp c .check _ =>
      c.evenIfFresh = true → S.world.db.isReferenced c.image = false → ¬Undecided S.requests c.image
  | .cleanUp c .clock _ => S.world.db.isReferenced c.image = true →
      isFresh S.world.now (S.world.files c.image .p) = true
  | _ => True

def Sys.Clear (S : Sys) : Move → Prop
  | .turn i _ => ∀ r ∈ S.requests[i]?, S.Gives r
  | _         => True

instance {S : Sys} : ∀ r, Decidable (S.Gives r)
  | .upload target key (.writePreview _) =>
      inferInstanceAs (Decidable (¬Removing S.requests (target.image key)))
  | .upload target key (.writeThumb _ _) =>
      inferInstanceAs (Decidable (¬Removing S.requests (target.image key)))
  | .cleanUp c .check _ =>
      inferInstanceAs (Decidable (c.evenIfFresh = true → S.world.db.isReferenced c.image = false →
        ¬Undecided S.requests c.image))
  | .cleanUp c .clock _ =>
      inferInstanceAs (Decidable (S.world.db.isReferenced c.image = true →
        isFresh S.world.now (S.world.files c.image .p) = true))
  | .upload _ _ .stat | .upload _ _ (.claim _ _) | .clearImage _ | .cleanUp _ (.stat _ _) _
  | .cleanUp _ (.rm _) _ | .over => .isTrue trivial

instance {S : Sys} : ∀ m, Decidable (S.Clear m)
  | .turn i _ => inferInstanceAs (Decidable (∀ r ∈ S.requests[i]?, S.Gives r))
  | .upload _ _ | .clearImage _ | .stop _ | .tick _ => .isTrue trivial

/-- Every transaction ends within the grace period, throughout the run. -/
def TimelyRun : Sys → List Move → Prop
  | S, []      => S.Timely
  | S, m :: ms => S.Timely ∧ TimelyRun (S.move m) ms

def ClearRun : Sys → List Move → Prop
  | _, []      => True
  | S, m :: ms => S.Clear m ∧ ClearRun (S.move m) ms

instance instDecidableTimelyRun : ∀ S ms, Decidable (TimelyRun S ms)
  | S, []      => inferInstanceAs (Decidable S.Timely)
  | S, m :: ms =>
      have := instDecidableTimelyRun (S.move m) ms
      inferInstanceAs (Decidable (S.Timely ∧ TimelyRun (S.move m) ms))

instance instDecidableClearRun : ∀ S ms, Decidable (ClearRun S ms)
  | _, []      => .isTrue trivial
  | S, m :: ms =>
      have := instDecidableClearRun (S.move m) ms
      inferInstanceAs (Decidable (S.Clear m ∧ ClearRun (S.move m) ms))

/-- Both files of every image that a row names are there. -/
def World.Kept (w : World) : Prop :=
  ∀ image, w.db.isReferenced image = true → ∀ variant, w.files image variant ≠ none

/-! ## What a commit changes -/

/-- A picture that is set adds one reference at most: its own. -/
theorem Db.isReferenced_setImageIn {db db' : Db} {id : String} {key previous : Option String}
    (h : db.setImageIn id key = .ok (db', previous)) {image : Image} (href : db'.isReferenced image = true) :
    db.isReferenced image = true ∨ image.store = .productImages ∧ key = some image.key := by
  unfold setImageIn at h
  split at h
  · cases h
  · cases h
    cases hstore : image.store with
    | salePhotos =>
        left
        simpa [isReferenced, hstore] using href
    | productImages =>
        simp only [isReferenced, hstore, List.any_map, List.any_eq_true, Function.comp_apply,
          decide_eq_true_eq] at href ⊢
        obtain ⟨r, hr, hkey⟩ := href
        split at hkey
        · exact Or.inr ⟨trivial, hkey⟩
        · exact Or.inl ⟨r, hr, hkey⟩

/-- So does a photo that is attached. -/
theorem Db.isReferenced_attachIn {db db' : Db} {saleId photoId key sourceSha256 : String}
    (h : db.attachIn saleId photoId key sourceSha256 = .ok db') {image : Image}
    (href : db'.isReferenced image = true) :
    db.isReferenced image = true ∨ image = ⟨.salePhotos, key⟩ := by
  have hnew : ∀ ps, isReferenced { db with photos := ps } image = true →
      (∀ p ∈ ps, p ∈ db.photos ∨ p.imageKey = key) →
      db.isReferenced image = true ∨ image = ⟨.salePhotos, key⟩ := by
    intro ps hps hmem
    obtain ⟨store, k⟩ := image
    cases store with
    | productImages => exact Or.inl hps
    | salePhotos =>
        simp only [isReferenced, List.any_eq_true, decide_eq_true_eq] at hps ⊢
        obtain ⟨p, hp, hk⟩ := hps
        rcases hmem p hp with hold | rfl
        · exact Or.inl ⟨p, hold, hk⟩
        · exact Or.inr (by rw [hk])
  unfold attachIn at h
  split at h
  · cases h
  · split at h
    · split at h
      · cases h
        exact Or.inl href
      · cases h
    · split at h
      · cases h
      · cases h
        refine hnew _ href fun p hp => ?_
        rcases List.mem_append.mp hp with hp | hp
        · exact Or.inl hp
        · exact Or.inr (by rw [List.mem_singleton.mp hp])

/-- A row that the commit of an upload leaves names the upload's image, or an image that was named. -/
theorem Db.isReferenced_write {db db' : Db} {key : String} {target : Target} {hooks : List CleanUp}
    (h : db.write key target = .ok (db', hooks)) {image : Image} (href : db'.isReferenced image = true) :
    db.isReferenced image = true ∨ image = target.image key := by
  cases target with
  | product id =>
      cases hset : db.setImageIn id (some key) with
      | error e =>
          rw [write, hset] at h
          cases h
      | ok x =>
          rw [write, hset] at h
          cases h
          rcases isReferenced_setImageIn hset href with hold | ⟨hstore, hkey⟩
          · exact Or.inl hold
          · right
            obtain ⟨store, k⟩ := image
            cases hstore
            cases hkey
            rfl
  | photo saleId photoId sourceSha256 =>
      cases hattach : db.attachIn saleId photoId key sourceSha256 with
      | error e =>
          rw [write, hattach] at h
          cases h
      | ok x =>
          rw [write, hattach] at h
          cases h
          exact isReferenced_attachIn hattach href

theorem Db.isReferenced_clearImageIn {db db' : Db} {id : String} {previous : Option String}
    (h : db.clearImageIn id = .ok (db', previous)) {image : Image} (href : db'.isReferenced image = true) :
    db.isReferenced image = true := by
  rcases isReferenced_setImageIn h href with hold | ⟨-, hkey⟩
  · exact hold
  · cases hkey

/-! ## The invariant -/

/-- The preview is there, written at `at` or later. -/
def World.Held (w : World) (image : Image) (writtenAt : Int) : Prop :=
  writtenAt ≤ w.now ∧ ∃ mtime, w.files image .p = some mtime ∧ writtenAt ≤ mtime

/-- A row names the image, or an upload that has written it may yet lead to one. -/
def World.Wanted (w : World) (rs : List Request) (image : Image) : Prop :=
  w.db.isReferenced image = true ∨ Undecided rs image

/-- What a request in progress may rely on. A clean-up that looks at an image which has become wanted
will find its preview fresh. -/
def World.Fits (w : World) (rs : List Request) : Request → Prop
  | .upload target key (.writeThumb _ writtenAt) => w.Held (target.image key) writtenAt
  | .upload target key (.claim _ writtenAt) =>
      w.Held (target.image key) writtenAt ∧ w.files (target.image key) .t ≠ none
  | .cleanUp c (.stat _ now) _ =>
      now ≤ w.now ∧ (w.Wanted rs c.image → isFresh now (w.files c.image .p) = true)
  | .cleanUp c (.rm _) _ => ¬w.Wanted rs c.image
  | _ => True

structure Inv (w : World) (rs : List Request) : Prop where
  kept : w.Kept
  fits : ∀ r ∈ rs, w.Fits rs r

section
variable {w w' : World} {rs rs' : List Request} {r r' : Request} {image : Image} {cs : List CleanUp}

/-- An upload is undecided about what it has written. -/
theorem undecided_of_mem (h : r ∈ rs) {x : Image × Int} (hx : r.written = some x) : Undecided rs x.1 :=
  ⟨r, h, by rw [hx]; rfl⟩

theorem Undecided.of_mem (h : Undecided rs' image) (hmem : ∀ r ∈ rs', r ∈ rs ∨ r = r') :
    Undecided rs image ∨ r'.written.map Prod.fst = some image := by
  obtain ⟨r, hr, hw⟩ := h
  rcases hmem r hr with hr | rfl
  · exact Or.inl ⟨r, hr, hw⟩
  · exact Or.inr hw

/-- Requests rely on the files, on the rows and on what is undecided. Where a change spares the files
they hold and makes nothing wanted but what is fresh, what fitted still does. -/
theorem World.Fits.later (h : w.Fits rs r) (hr : r ∈ rs) (hnow : w.now ≤ w'.now)
    (hheld : ∀ image writtenAt, Undecided rs image → w.Held image writtenAt → w'.Held image writtenAt)
    (hthumb : ∀ image, Undecided rs image → w.files image .t ≠ none → w'.files image .t ≠ none)
    (hfresh : ∀ image now, now ≤ w.now → w'.Wanted rs' image →
      (w.Wanted rs image → isFresh now (w.files image .p) = true) → isFresh now (w'.files image .p) = true)
    (hremoves : ∀ image, Removing rs image → w'.Wanted rs' image → w.Wanted rs image) :
    w'.Fits rs' r := by
  match r, h with
  | .upload target key (.writeThumb created writtenAt), h =>
      exact hheld _ _ (undecided_of_mem hr rfl) h
  | .upload target key (.claim created writtenAt), h =>
      exact ⟨hheld _ _ (undecided_of_mem hr rfl) h.1, hthumb _ (undecided_of_mem hr rfl) h.2⟩
  | .cleanUp c (.stat variant now) rest, h =>
      exact ⟨Int.le_trans h.1 hnow, fun hwanted => hfresh _ _ h.1 hwanted h.2⟩
  | .cleanUp c (.rm variant) rest, h => exact fun hwanted => h (hremoves _ ⟨_, hr, rfl⟩ hwanted)
  | .upload _ _ .stat, _ | .upload _ _ (.writePreview _), _ | .clearImage _, _
  | .cleanUp _ .check _, _ | .cleanUp _ .clock _, _ | .over, _ => trivial

/-- The others of `rs'` fit in still, and so does the request that is new. -/
theorem Inv.of_mem (hmem : ∀ r ∈ rs', r ∈ rs ∨ r = r') (hkept : w'.Kept)
    (hothers : ∀ r ∈ rs, w'.Fits rs' r) (hfits : w'.Fits rs' r') : Inv w' rs' := by
  refine ⟨hkept, fun r hr => ?_⟩
  rcases hmem r hr with hr | rfl
  · exact hothers r hr
  · exact hfits

theorem Inv.quiet (h : Inv w rs) (hmem : ∀ r ∈ rs', r ∈ rs ∨ r = r')
    (hwritten : ∀ image, r'.written.map Prod.fst = some image → Undecided rs image)
    (hfits : w.Fits rs' r') : Inv w rs' := by
  have hwanted : ∀ image, w.Wanted rs' image → w.Wanted rs image := by
    rintro image (href | hun)
    · exact Or.inl href
    · exact Or.inr ((hun.of_mem hmem).elim id (hwritten image))
  refine .of_mem hmem h.kept (fun r hr => ?_) hfits
  exact (h.fits r hr).later hr (Int.le_refl _) (fun _ _ _ => id) (fun _ _ => id)
    (fun image _ _ hw hfresh => hfresh (hwanted image hw)) (fun image _ => hwanted image)

theorem fits_cleaning : ∀ cs, w.Fits rs (cleaning cs)
  | []     => trivial
  | _ :: _ => trivial

theorem written_cleaning : ∀ cs, (cleaning cs).written = none
  | []     => rfl
  | _ :: _ => rfl

/-- A request that only goes on to clean up leaves no more undecided. -/
theorem Inv.toCleaning (h : Inv w rs) (hmem : ∀ r ∈ rs', r ∈ rs ∨ r = cleaning cs) : Inv w rs' := by
  refine h.quiet hmem (fun image hw => ?_) (fits_cleaning cs)
  rw [written_cleaning] at hw
  cases hw

/-! ### Files -/

@[simp] theorem World.setFile_db {image variant mtime} : (w.setFile image variant mtime).db = w.db := rfl

@[simp] theorem World.setFile_now {image variant mtime} : (w.setFile image variant mtime).now = w.now := rfl

theorem World.setFile_self {image variant mtime} :
    (w.setFile image variant mtime).files image variant = mtime := if_pos ⟨rfl, rfl⟩

theorem World.setFile_of_ne {image image' : Image} {variant variant' : ImageVariant} {mtime : Option Int}
    (h : ¬(image' = image ∧ variant' = variant)) :
    (w.setFile image variant mtime).files image' variant' = w.files image' variant' := if_neg h

/-- A file that is written just now is there, the others are what they were. -/
theorem World.setFile_some {image image' : Image} {variant variant' : ImageVariant}
    (h : w.files image' variant' ≠ none) :
    (w.setFile image variant (some w.now)).files image' variant' ≠ none := by
  by_cases heq : image' = image ∧ variant' = variant
  · obtain ⟨rfl, rfl⟩ := heq
    rw [setFile_self]
    exact Option.some_ne_none _
  · rwa [setFile_of_ne heq]

theorem isFresh_some {now mtime : Int} : isFresh now (some mtime) = true ↔ now - orphanGraceMs < mtime := by
  simp [isFresh]

theorem World.Held.write {writtenAt : Int} (h : w.Held image writtenAt) (image' : Image)
    (variant : ImageVariant) : (w.setFile image' variant (some w.now)).Held image writtenAt := by
  obtain ⟨hnow, mtime, hfile, hle⟩ := h
  refine ⟨hnow, ?_⟩
  by_cases heq : image = image' ∧ ImageVariant.p = variant
  · obtain ⟨rfl, rfl⟩ := heq
    exact ⟨w.now, setFile_self, hnow⟩
  · exact ⟨mtime, by rw [setFile_of_ne heq, hfile], hle⟩

/-- A write keeps what is kept, and everything that fits, as long as nothing removes the image. -/
theorem Inv.write (h : Inv w rs) (hmem : ∀ r ∈ rs', r ∈ rs ∨ r = r') (image : Image)
    (variant : ImageVariant) (hremoving : ¬Removing rs image)
    (hwritten : ∀ image', r'.written.map Prod.fst = some image' →
      Undecided rs image' ∨ image' = image ∧ variant = .p)
    (hfits : (w.setFile image variant (some w.now)).Fits rs' r') :
    Inv (w.setFile image variant (some w.now)) rs' := by
  have hwanted : ∀ image', (w.setFile image variant (some w.now)).Wanted rs' image' →
      w.Wanted rs image' ∨ image' = image ∧ variant = .p := by
    rintro image' (href | hun)
    · exact Or.inl (Or.inl href)
    · rcases hun.of_mem hmem with hun | hw
      · exact Or.inl (Or.inr hun)
      · exact (hwritten image' hw).imp_left Or.inr
  refine .of_mem hmem (fun image' href v => World.setFile_some (h.kept image' href v)) (fun r hr => ?_) hfits
  refine (h.fits r hr).later hr (Int.le_refl _) (fun _ _ _ hheld => hheld.write image variant)
    (fun _ _ hthumb => World.setFile_some hthumb) ?_ ?_
  · intro image' now hnow hw hfresh
    by_cases heq : image' = image ∧ ImageVariant.p = variant
    · obtain ⟨rfl, rfl⟩ := heq
      rw [World.setFile_self, isFresh_some, orphanGraceMs]
      omega
    · rw [World.setFile_of_ne heq]
      rcases hwanted image' hw with hw | ⟨rfl, rfl⟩
      · exact hfresh hw
      · exact absurd ⟨rfl, rfl⟩ heq
  · intro image' hrem hw
    rcases hwanted image' hw with hw | ⟨rfl, -⟩
    · exact hw
    · exact absurd hrem hremoving

/-- A file that nothing wants may go. -/
theorem Inv.rm (h : Inv w rs) (hmem : ∀ r ∈ rs', r ∈ rs ∨ r = r') (image : Image)
    (variant : ImageVariant) (hunwanted : ¬w.Wanted rs image) (hwritten : r'.written = none)
    (hfits : ¬w.Wanted rs' image → (w.setFile image variant none).Fits rs' r') :
    Inv (w.setFile image variant none) rs' := by
  have hwanted : ∀ image', w.Wanted rs' image' → w.Wanted rs image' := by
    rintro image' (href | hun)
    · exact Or.inl href
    · rcases hun.of_mem hmem with hun | hw
      · exact Or.inr hun
      · rw [hwritten] at hw
        cases hw
  have hne : ∀ {image' : Image}, w.Wanted rs image' → ∀ {v}, ¬(image' = image ∧ v = variant) := by
    rintro _ hw _ ⟨rfl, -⟩
    exact hunwanted hw
  refine .of_mem hmem ?_ (fun r hr => ?_) (hfits fun hw => hunwanted (hwanted image hw))
  · intro image' href v
    rw [World.setFile_of_ne (hne (Or.inl href))]
    exact h.kept image' href v
  · refine (h.fits r hr).later hr (Int.le_refl _) ?_ ?_ ?_ (fun image' _ => hwanted image')
    · intro image' writtenAt hun hheld
      rw [World.Held, World.setFile_of_ne (hne (Or.inr hun))]
      exact hheld
    · intro image' hun hthumb
      rwa [World.setFile_of_ne (hne (Or.inr hun))]
    · intro image' now _ hw hfresh
      have hold := hwanted image' hw
      rw [World.setFile_of_ne (hne hold)]
      exact hfresh hold

/-! ### Rows -/

/-- A commit that names nothing new but what is undecided, with both files there. -/
theorem Inv.commit (h : Inv w rs) {db : Db} {cs : List CleanUp}
    (hmem : ∀ r ∈ rs', r ∈ rs ∨ r = cleaning cs)
    (hnames : ∀ image, db.isReferenced image = true → w.db.isReferenced image = true ∨
      Undecided rs image ∧ ∀ variant, w.files image variant ≠ none) :
    Inv { w with db } rs' := by
  have hwanted : ∀ image, World.Wanted { w with db } rs' image → w.Wanted rs image := by
    rintro image (href | hun)
    · exact (hnames image href).imp_right And.left
    · rcases hun.of_mem hmem with hun | hw
      · exact Or.inr hun
      · rw [written_cleaning] at hw
        cases hw
  refine .of_mem hmem ?_ (fun r hr => ?_) (fits_cleaning cs)
  · intro image href
    rcases hnames image href with hold | ⟨-, hfiles⟩
    · exact h.kept image hold
    · exact hfiles
  · exact (h.fits r hr).later hr (Int.le_refl _) (fun _ _ _ => id) (fun _ _ => id)
      (fun image _ _ hw hfresh => hfresh (hwanted image hw)) (fun image _ => hwanted image)

/-! ### Turns -/

/-- The end of an upload keeps the invariant, whether its row was written or refused. -/
theorem Inv.settle (h : Inv w rs) {target : Target} {key : String} {created : Bool} {writtenAt : Int}
    (hr : .upload target key (.claim created writtenAt) ∈ rs) (outcome : Outcome)
    (hmem : ∀ r ∈ rs', r ∈ rs ∨ r = (w.settle target key created outcome).2) :
    Inv (w.settle target key created outcome).1 rs' := by
  have hown : (∀ r ∈ rs', r ∈ rs ∨ r = cleaning [⟨target.image key, created⟩]) → Inv w rs' := h.toCleaning
  cases outcome with
  | throws => exact hown hmem
  | replay => exact hown hmem
  | inFlight => exact h.quiet hmem (fun _ hw => nomatch hw) trivial
  | done =>
      unfold World.settle at hmem ⊢
      cases hwrite : w.db.write key target with
      | error e =>
          rw [hwrite] at hmem
          exact hown hmem
      | ok x =>
          obtain ⟨db, hooks⟩ := x
          rw [hwrite] at hmem
          refine h.commit hmem fun image href => (Db.isReferenced_write hwrite href).imp_right ?_
          rintro rfl
          obtain ⟨⟨-, mtime, hp, -⟩, ht⟩ := h.fits _ hr
          refine ⟨undecided_of_mem hr rfl, fun variant => ?_⟩
          cases variant with
          | t => exact ht
          | p =>
              rw [hp]
              exact Option.some_ne_none _

/-- Each turn of an upload keeps the invariant. -/
theorem Inv.uploadTurn (h : Inv w rs) {target : Target} {key : String} {stage : Stage}
    (hr : .upload target key stage ∈ rs) (outcome : Outcome)
    (hgives : Sys.Gives ⟨w, rs⟩ (.upload target key stage))
    (hmem : ∀ r ∈ rs', r ∈ rs ∨ r = (w.uploadTurn target key stage outcome).2) :
    Inv (w.uploadTurn target key stage outcome).1 rs' := by
  have hover : (∀ r ∈ rs', r ∈ rs ∨ r = .over) → Inv w rs' :=
    fun hmem => h.quiet hmem (fun _ hw => nomatch hw) trivial
  cases stage with
  | stat => exact h.quiet hmem (fun _ hw => nomatch hw) trivial
  | writePreview created =>
      have hwrite : (∀ r ∈ rs', r ∈ rs ∨ r = .upload target key (.writeThumb created w.now)) →
          Inv (w.setFile (target.image key) .p (some w.now)) rs' := by
        intro hmem
        refine h.write hmem _ _ hgives (fun image hw => ?_) ?_
        · exact Or.inr ⟨(Option.some.inj hw).symm, rfl⟩
        · exact ⟨Int.le_refl _, w.now, World.setFile_self, Int.le_refl _⟩
      cases outcome with
      | throws => exact hover hmem
      | done => exact hwrite hmem
      | replay => exact hwrite hmem
      | inFlight => exact hwrite hmem
  | writeThumb created writtenAt =>
      have hwrite : (∀ r ∈ rs', r ∈ rs ∨ r = .upload target key (.claim created writtenAt)) →
          Inv (w.setFile (target.image key) .t (some w.now)) rs' := by
        intro hmem
        refine h.write hmem _ _ hgives (fun image hw => ?_) ?_
        · rw [← Option.some.inj hw]
          exact Or.inl (undecided_of_mem hr rfl)
        · refine ⟨World.Held.write (h.fits _ hr) _ _, ?_⟩
          rw [World.setFile_self]
          exact Option.some_ne_none _
      cases outcome with
      | throws => exact hover hmem
      | done => exact hwrite hmem
      | replay => exact hwrite hmem
      | inFlight => exact hwrite hmem
  | claim created writtenAt => exact h.settle hr outcome hmem

/-- Each turn of a removal keeps the invariant. -/
theorem Inv.clearTurn (h : Inv w rs) {productId : String} (outcome : Outcome)
    (hmem : ∀ r ∈ rs', r ∈ rs ∨ r = (w.clearTurn productId outcome).2) :
    Inv (w.clearTurn productId outcome).1 rs' := by
  have hover : (∀ r ∈ rs', r ∈ rs ∨ r = .over) → Inv w rs' :=
    fun hmem => h.quiet hmem (fun _ hw => nomatch hw) trivial
  cases outcome with
  | throws => exact hover hmem
  | replay => exact hover hmem
  | inFlight => exact hover hmem
  | done =>
      unfold World.clearTurn at hmem ⊢
      cases hclear : w.db.clearImageIn productId with
      | error e =>
          rw [hclear] at hmem
          exact hover hmem
      | ok x =>
          obtain ⟨db, previous⟩ := x
          rw [hclear] at hmem
          exact h.commit hmem fun image href => Or.inl (Db.isReferenced_clearImageIn hclear href)

/-- Where the image is wanted as the clock is read, it was committed or its upload is going on, within
the grace period. -/
theorem Inv.fresh (h : Inv w rs) (htimely : Sys.Timely ⟨w, rs⟩)
    (hnamed : w.db.isReferenced image = true → isFresh w.now (w.files image .p) = true)
    (hwanted : w.Wanted rs image) : isFresh w.now (w.files image .p) = true := by
  rcases hwanted with href | ⟨r, hr, hw⟩
  · exact hnamed href
  · obtain ⟨⟨image, writtenAt⟩, hx, rfl⟩ := Option.map_eq_some_iff.mp hw
    have htime := htimely r hr _ hx
    have hheld : w.Held image writtenAt := by
      match r, hx, h.fits r hr with
      | .upload target key (.writeThumb created _), rfl, hfits => exact hfits
      | .upload target key (.claim created _), rfl, hfits => exact hfits.1
    obtain ⟨-, mtime, hfile, hle⟩ := hheld
    rw [hfile, isFresh_some]
    dsimp only at htime
    omega

/-- Each turn of a clean-up keeps it, where no commit overtakes the look at the references. -/
theorem Inv.cleanUpTurn (h : Inv w rs) (htimely : Sys.Timely ⟨w, rs⟩) {c : CleanUp} {stage : CleanStage}
    (hr : .cleanUp c stage cs ∈ rs) (outcome : Outcome)
    (hgives : Sys.Gives ⟨w, rs⟩ (.cleanUp c stage cs))
    (hmem : ∀ r ∈ rs', r ∈ rs ∨ r = (w.cleanUpTurn c cs stage outcome).2) :
    Inv (w.cleanUpTurn c cs stage outcome).1 rs' := by
  have hnext : (∀ r ∈ rs', r ∈ rs ∨ r = cleaning cs) → Inv w rs' := h.toCleaning
  have hstay : ∀ stage', w.Fits rs' (.cleanUp c stage' cs) →
      (∀ r ∈ rs', r ∈ rs ∨ r = .cleanUp c stage' cs) → Inv w rs' :=
    fun _ hfits hmem => h.quiet hmem (fun _ hw => nomatch hw) hfits
  have hwanted : ∀ {stage'}, (∀ r ∈ rs', r ∈ rs ∨ r = .cleanUp c stage' cs) →
      w.Wanted rs' c.image → w.Wanted rs c.image := by
    rintro stage' hmem (href | hun)
    · exact Or.inl href
    · exact Or.inr ((hun.of_mem hmem).elim id fun hw => nomatch hw)
  have hfits := h.fits _ hr
  match stage, outcome with
  | .check, .throws => exact hnext hmem
  | .check, .done | .check, .replay | .check, .inFlight =>
      unfold World.cleanUpTurn at hmem ⊢
      cases href : w.db.isReferenced c.image with
      | true =>
          simp only [href, if_true] at hmem ⊢
          exact hnext hmem
      | false =>
          simp only [href, Bool.false_eq_true, if_false] at hmem ⊢
          refine hstay _ ?_ hmem
          split
          case isTrue hat =>
            rintro (hnamed | hun)
            · rw [href] at hnamed
              cases hnamed
            · exact hgives hat href ((hun.of_mem hmem).elim id fun hw => nomatch hw)
          case isFalse => trivial
  | .clock, .throws | .clock, .done | .clock, .replay | .clock, .inFlight =>
      refine hstay (.stat .t w.now) ⟨Int.le_refl _, fun hw => ?_⟩ hmem
      exact h.fresh htimely hgives (hwanted hmem hw)
  | .stat variant now, .throws | .stat variant now, .done | .stat variant now, .replay
  | .stat variant now, .inFlight =>
      unfold World.cleanUpTurn at hmem ⊢
      cases hfresh : isFresh now (w.files c.image variant) with
      | true =>
          simp only [hfresh, if_true] at hmem ⊢
          exact hnext hmem
      | false =>
          simp only [hfresh, Bool.false_eq_true, if_false] at hmem ⊢
          refine hstay _ ?_ hmem
          cases variant with
          | t => exact ⟨hfits.1, fun hw => hfits.2 (hwanted hmem hw)⟩
          | p =>
              intro hw
              rw [hfits.2 (hwanted hmem hw)] at hfresh
              cases hfresh
  | .rm variant, .throws => exact hnext hmem
  | .rm .t, .done | .rm .t, .replay | .rm .t, .inFlight => exact h.rm hmem _ _ hfits rfl id
  | .rm .p, .done | .rm .p, .replay | .rm .p, .inFlight =>
      exact h.rm hmem _ _ hfits (written_cleaning cs) fun _ => fits_cleaning cs

theorem Inv.turn (h : Inv w rs) (htimely : Sys.Timely ⟨w, rs⟩) (hr : r ∈ rs) (outcome : Outcome)
    (hgives : Sys.Gives ⟨w, rs⟩ r) (hmem : ∀ x ∈ rs', x ∈ rs ∨ x = (w.turn outcome r).2) :
    Inv (w.turn outcome r).1 rs' := by
  cases r with
  | upload target key stage => exact h.uploadTurn hr outcome hgives hmem
  | clearImage productId => exact h.clearTurn outcome hmem
  | cleanUp c stage rest => exact h.cleanUpTurn htimely hr outcome hgives hmem
  | _ => exact h.quiet hmem (fun _ hw => nomatch hw) trivial

theorem Inv.tick (h : Inv w rs) (ms : Nat) : Inv { w with now := w.now + ms } rs := by
  refine ⟨h.kept, fun r hr => (h.fits r hr).later hr (Int.le_add_of_nonneg_right (Int.natCast_nonneg ms)) ?_
    (fun _ _ => id) (fun _ _ _ hw hfresh => hfresh hw) (fun _ _ => id)⟩
  rintro image writtenAt - ⟨hnow, hfile⟩
  exact ⟨Int.le_trans hnow (Int.le_add_of_nonneg_right (Int.natCast_nonneg ms)), hfile⟩

end

/-- Every move of the system keeps the invariant. -/
theorem Inv.move {S : Sys} (h : Inv S.world S.requests) (htimely : S.Timely) (m : Move)
    (hclear : S.Clear m) : Inv (S.move m).world (S.move m).requests := by
  have hnew : ∀ r, ∀ x ∈ S.requests ++ [r], x ∈ S.requests ∨ x = r :=
    fun _ _ hx => (List.mem_append.mp hx).imp_right List.mem_singleton.mp
  cases m with
  | upload target key => exact h.quiet (hnew (.upload target key .stat)) (fun _ hw => nomatch hw) trivial
  | clearImage productId => exact h.quiet (hnew (.clearImage productId)) (fun _ hw => nomatch hw) trivial
  | stop i => exact h.quiet (fun r hr => List.mem_or_eq_of_mem_set hr) (fun _ hw => nomatch hw) trivial
  | tick ms => exact h.tick ms
  | turn i outcome =>
      cases hr : S.requests[i]? with
      | none => simpa only [Sys.move, hr] using h
      | some r =>
          simp only [Sys.move, hr]
          exact h.turn htimely (List.mem_of_getElem? hr) outcome (hclear r hr)
            fun x hx => List.mem_or_eq_of_mem_set hx

theorem Inv.run {S : Sys} (h : Inv S.world S.requests) {moves : List Move} (htimely : TimelyRun S moves)
    (hclear : ClearRun S moves) : Inv (S.run moves).world (S.run moves).requests := by
  induction moves generalizing S with
  | nil => exact h
  | cons m ms ih => exact ih (h.move htimely.1 m hclear.1) htimely.2 hclear.2

/-! ## Pictures keep their files -/

/-- A shop whose pictures are all there, with no request in progress. -/
structure Shop extends World where
  kept : toWorld.Kept

def Shop.run (shop : Shop) (moves : List Move) : Sys := Sys.run ⟨shop.toWorld, []⟩ moves

/-- Whatever the requests and their order, every image that a row names has both files: as long as the
transactions end in the grace period and the requests keep out of each other's way. -/
theorem committed_keeps_files (shop : Shop) (moves : List Move)
    (htimely : TimelyRun ⟨shop.toWorld, []⟩ moves) (hclear : ClearRun ⟨shop.toWorld, []⟩ moves) :
    (shop.run moves).world.Kept :=
  have hinv : Inv shop.toWorld [] := ⟨shop.kept, fun _ hr => nomatch hr⟩
  (hinv.run htimely hclear).kept

/-- A shop with one bill and a product, and no picture yet. -/
def bareShop : Shop where
  now := 0
  files _ _ := none
  db := { products := [⟨"P", none, false⟩], sales := ["S"], photos := [] }
  kept := by
    rintro ⟨store, key⟩ href
    cases store <;> cases href

def goOn (i n : Nat) : List Move := List.replicate n (.turn i .done)

/-- A product's picture is replaced after a while, and a photo of a bill comes in meanwhile. -/
def replacedPicture : List Move :=
  [.upload (.product "P") "a"] ++ goOn 0 5 ++ [.tick 660000, .upload (.product "P") "b"] ++ goOn 1 5
    ++ [.upload (.photo "S" "F" "sha") "c"] ++ goOn 2 4 ++ goOn 1 6 ++ goOn 2 1

theorem committed_keeps_files_of_replacedPicture :
    (bareShop.run replacedPicture).world.Kept ∧
      (bareShop.run replacedPicture).world.db =
        ⟨[⟨"P", some "b", false⟩], ["S"], [⟨"F", "S", "c", "sha"⟩]⟩ ∧
      (bareShop.run replacedPicture).requests = [.over, .over, .over] ∧
      (bareShop.run replacedPicture).world.files ⟨.productImages, "a"⟩ .p = none :=
  ⟨committed_keeps_files bareShop replacedPicture (by decide +kernel) (by decide +kernel),
    by decide +kernel, by decide +kernel, by decide +kernel⟩

/-- A photo is sent to a bill that is not there, and the same photo to the one that is: the clean-up of
the first is removing the files while the second commits. -/
def refusedPhoto : List Move :=
  [.upload (.photo "none" "E" "sha") "c"] ++ goOn 0 4 ++ [.upload (.photo "S" "F" "sha") "c"] ++ goOn 1 3
    ++ goOn 0 1 ++ goOn 1 1 ++ goOn 0 2 ++ goOn 1 1

/-- A committed photo without files, after transactions that all ended in time. -/
theorem committed_loses_files : ¬∀ (shop : Shop) (moves : List Move),
    TimelyRun ⟨shop.toWorld, []⟩ moves → (∀ r ∈ (shop.run moves).requests, r = .over) →
      (shop.run moves).world.Kept := by
  intro h
  have hkept := h bareShop refusedPhoto (by decide +kernel) (by decide +kernel)
  exact hkept ⟨.salePhotos, "c"⟩ (by decide +kernel) .p (by decide +kernel)

end Server.ImageFiles
