import SrisurartPos.Till.Session

/-! # Whose tokens are stored

The session is compared before the token storage is written, and other things may come between the two.
As long as nobody signs in or out in such a gap, the stored tokens are of the one who signed in last. A
request needs no such luck: it compares the session after it has read its token. -/

namespace Session

variable {s s' : State} {j k r n : Nat} {f g : Flow} {p : Flow → Bool} {req : Request} {st : Stage}

/-! ## The invariant -/

/-- The client's refresh `k` is of the session `n`. It is the only one of the session that runs. -/
def State.Leads (s : State) (k n : Nat) : Prop :=
  n ≤ s.session ∧ (n = s.session → s.refreshFuture = some (k, n))

/-- Nobody is signed in, or whoever is, is leaving. -/
def Phase.Going : Phase → Prop
  | .out | .leaving _            => True
  | .signingIn _ | .signedIn _   => False

/-- What a flow relies on. The client's refresh knows who is signed in only while its session lasts. -/
def FlowOk (s : State) (k : Nat) : Flow → Prop
  | .storing x _             => s.phase = .signingIn x
  | .replacing t _           => s.phase = .signedIn t.login
  | .refreshing none t       => s.phase = .signedIn t.login
  | .refreshing (some n) t   => s.Leads k n ∧ (n = s.session → s.phase = .signedIn t.login)
  | .clearing n expiry half  =>
      (expiry = true → s.Leads k n) ∧ s.phase.Going ∧ (half = true → s.accessToken = none)
  | .cleared n | .reading n  => s.Leads k n
  | .ended _                 => True

/-- The token that a request has read. -/
def Stage.token : Stage → Option Token
  | .headed _ t _ => t
  | _             => none

/-- A request of the current session was begun by who is signed in, and so was the token it read. -/
structure RequestOk (s : State) (req : Request) : Prop where
  le : req.session ≤ s.session
  owner : req.session = s.session → ∀ x, s.phase.owner = some x → req.startedBy = some x
  token : req.session = s.session → ∀ t, req.stage.token = some t → req.startedBy = some t.login

/-- A flow is in the gap `p`. -/
def State.Some (s : State) (p : Flow → Bool) : Prop := ∃ k f, s.flows k = some f ∧ p f = true

structure Inv (s : State) : Prop extends s.Isolated where
  flows : ∀ k f, s.flows k = some f → FlowOk s k f
  /-- one login at a time -/
  alone : ∀ j k f g, s.flows j = some f → s.flows k = some g → f.signsIn = true → g.signsIn = true → j = k
  signing : ∀ x, s.phase = .signingIn x → s.Some Flow.signsIn
  leaving : ∀ x, s.phase = .leaving x → s.Some Flow.clears
  requests : ∀ r req, s.requests r = some req → RequestOk s req

theorem State.No.not_some (h : s.No p) : ¬s.Some p := by
  rintro ⟨k, f, hf, hp⟩
  rw [h k f hf] at hp
  cases hp

/-- With nothing on its way and the tokens of whoever is signed in, all is in order. -/
theorem Inv.start (h : s.Start) : Inv s where
  tokens := h.tokens
  sends := by
    rw [h.sends]
    exact fun _ hd => nomatch hd
  flows := by
    intro k f hf
    rw [h.flows k] at hf
    cases hf
  alone := by
    intro j k f g hf
    rw [h.flows j] at hf
    cases hf
  signing := fun x hx => absurd hx (h.settled x).1
  leaving := fun x hx => absurd hx (h.settled x).2
  requests := by
    intro r req hr
    rw [h.requests r] at hr
    cases hr

namespace Phase

variable {p : Phase} {x : LoginId} {a t : Option Token}

@[simp] theorem owner_leave : p.leave.owner = p.owner := by cases p <;> rfl

theorem leave_ne : p.leave ≠ .signingIn x ∧ p.leave ≠ .signedIn x := by
  cases p <;> simp [leave]

theorem owner_left (h : p.left.owner = some x) : p.owner = some x := by
  cases p with
  | leaving y => cases h
  | out | signingIn _ | signedIn _ => exact h

/-- Whoever is not signed in has no token stored. -/
theorem Allows.own (h : p.Allows a t) {u : Token} (hu : a = some u) : p.owner = some u.login := by
  subst hu
  cases p with
  | out => exact nomatch h.1
  | signingIn y => exact congrArg some (h.1 u rfl).symm
  | leaving y => exact congrArg some (h.1 u rfl).symm
  | signedIn y => exact congrArg some (h.1 u rfl).symm

theorem Allows.leave (h : p.Allows a t) : p.leave.Allows a t := by
  cases p with
  | out => exact h
  | signingIn y => exact h
  | leaving y => exact h
  | signedIn y =>
      refine ⟨h.1, ?_⟩
      rintro u rfl
      exact Option.some.inj h.2

end Phase

/-- Under a new number, nothing that was begun before is of the session. -/
theorem RequestOk.newSession (h : RequestOk s req) (hlt : s.session < s'.session) :
    RequestOk s' req where
  le := h.le.trans hlt.le
  owner := fun heq => absurd heq (h.le.trans_lt hlt).ne
  token := fun heq => absurd heq (h.le.trans_lt hlt).ne

theorem RequestOk.same (h : RequestOk s req) (hsession : s'.session = s.session)
    (howner : ∀ x, s'.phase.owner = some x → s.phase.owner = some x) : RequestOk s' req where
  le := hsession ▸ h.le
  owner := fun heq x hx => h.owner (heq.trans hsession) x (howner x hx)
  token := fun heq => h.token (heq.trans hsession)

/-! ## One change at a time -/

namespace State

theorem some_flow (hp : p f = true) : (s.flow k f).Some p := ⟨k, f, Function.update_self k _ _, hp⟩

/-- Another flow stays in its gap. -/
theorem Some.flow (h : s.Some p) (hk : ∀ g, s.flows k = some g → p g = false) : (s.flow k f).Some p := by
  obtain ⟨j, g, hg, hp⟩ := h
  have hne : j ≠ k := by
    rintro rfl
    rw [hk g hg] at hp
    cases hp
  exact ⟨j, g, (Function.update_of_ne hne _ _).trans hg, hp⟩

theorem Leads.newSession (h : s.Leads k n) (hlt : s.session < s'.session) : s'.Leads k n :=
  ⟨h.1.trans hlt.le, fun heq => absurd heq (h.1.trans_lt hlt).ne⟩

theorem Leads.same (h : s.Leads k n) (hsession : s'.session = s.session)
    (hfuture : s'.refreshFuture = s.refreshFuture) : s'.Leads k n := by
  rw [Leads, hsession, hfuture]
  exact h

end State

/-- What the other flows rely on lasts through a change that meets these. -/
theorem FlowOk.keep (h : FlowOk s k f) (hlead : ∀ n, s.Leads k n → s'.Leads k n)
    (hphase : f.signsIn = true ∨ f.renews = true → s'.phase = s.phase)
    (hclear : f.clears = true → s.phase.Going →
      s'.phase.Going ∧ (s.accessToken = none → s'.accessToken = none))
    (hknown : ∀ n t, f = .refreshing (some n) t → n = s'.session → n = s.session ∧ s'.phase = s.phase) :
    FlowOk s' k f := by
  cases f with
  | storing x half => exact (hphase (.inl rfl)).trans h
  | replacing t half => exact (hphase (.inr rfl)).trans h
  | refreshing n t =>
      cases n with
      | none => exact (hphase (.inr rfl)).trans h
      | some n =>
          refine ⟨hlead n h.1, fun heq => ?_⟩
          obtain ⟨hsession, hsame⟩ := hknown n t rfl heq
          exact hsame.trans (h.2 hsession)
  | clearing n expiry half =>
      obtain ⟨hn, hgoing, hhalf⟩ := h
      obtain ⟨hgoing', haccess⟩ := hclear rfl hgoing
      exact ⟨fun he => hlead n (hn he), hgoing', fun ht => haccess (hhalf ht)⟩
  | cleared n | reading n => exact hlead n h
  | ended => trivial

namespace Inv

/-- A flow moves on and something changes. -/
theorem move (h : Inv s) (s' : State) (hflows : s'.flows = s.flows) (hrequests : s'.requests = s.requests)
    (hsends : s'.sends = s.sends) (htokens : s'.phase.Allows s'.accessToken s'.refreshToken)
    (hothers : ∀ j g, j ≠ k → s.flows j = some g → FlowOk s j g → FlowOk s' j g) (hf : FlowOk s' k f)
    (halone : f.signsIn = true → ∀ j g, s.flows j = some g → g.signsIn = true → j = k)
    (hsigning : ∀ x, s'.phase = .signingIn x → (s'.flow k f).Some Flow.signsIn)
    (hleaving : ∀ x, s'.phase = .leaving x → (s'.flow k f).Some Flow.clears)
    (hrequest : ∀ req, RequestOk s req → RequestOk s' req) : Inv (s'.flow k f) where
  tokens := htokens
  sends := hsends ▸ h.sends
  flows := by
    intro j g hg
    have hupdate : Function.update s'.flows k (some f) j = some g := hg
    rw [Function.update_apply, hflows] at hupdate
    split at hupdate
    · obtain rfl := Option.some.inj hupdate
      subst j
      exact hf
    · exact hothers j g ‹_› hupdate (h.flows j g hupdate)
  alone := by
    intro i j f' g hi hj hf' hg
    have hi : Function.update s'.flows k (some f) i = some f' := hi
    have hj : Function.update s'.flows k (some f) j = some g := hj
    rw [Function.update_apply, hflows] at hi hj
    split at hi
    · obtain rfl := Option.some.inj hi
      split at hj
      · rw [‹i = k›, ‹j = k›]
      · rw [‹i = k›, halone hf' j g hj hg]
    · split at hj
      · obtain rfl := Option.some.inj hj
        rw [‹j = k›, halone hg i f' hi hf']
      · exact h.alone i j f' g hi hj hf' hg
  signing := hsigning
  leaving := hleaving
  requests := fun r req hr => (hrequest req (h.requests r req (hrequests ▸ hr))).same rfl fun _ hx => hx

/-- A flow moves on outside the gaps of logins and clearings, and nothing else changes. -/
theorem turn (h : Inv s) (hk : ∀ g, s.flows k = some g → g.signsIn = false ∧ g.clears = false)
    (hf : FlowOk s k f) (hnew : f.signsIn = false) : Inv (s.flow k f) := by
  refine h.move _ rfl rfl rfl h.tokens (fun j g _ _ hg => hg) hf (fun hs => ?_) (fun x hx => ?_)
    (fun x hx => ?_) fun req hr => hr
  · rw [hnew] at hs
    cases hs
  · exact (h.signing x hx).flow fun g hg => (hk g hg).1
  · exact (h.leaving x hx).flow fun g hg => (hk g hg).2

/-- A request that goes on to a stage it may be in keeps the invariant. -/
theorem stage (h : Inv s) (hreq : RequestOk s { req with stage := st }) : Inv (s.stage r req st) where
  tokens := h.tokens
  sends := h.sends
  flows := h.flows
  alone := h.alone
  signing := h.signing
  leaving := h.leaving
  requests := by
    intro r' req' hr'
    have hupdate : Function.update s.requests r (some { req with stage := st }) r' = some req' := hr'
    rw [Function.update_apply] at hupdate
    split at hupdate
    · obtain rfl := Option.some.inj hupdate
      exact hreq.same rfl fun _ hx => hx
    · exact (h.requests r' req' hupdate).same rfl fun _ hx => hx

/-! ### Who is signed in -/

/-- A login is in its gap only while somebody signs in. -/
theorem signsIn_phase (h : Inv s) (hg : s.flows j = some g) (hs : g.signsIn = true) :
    ∃ x, s.phase = .signingIn x := by
  cases g with
  | storing x half => exact ⟨x, h.flows j _ hg⟩
  | _ => cases hs

theorem renews_phase (h : Inv s) (hg : s.flows j = some g) (hs : g.renews = true) :
    ∃ x, s.phase = .signedIn x := by
  cases g with
  | replacing t half => exact ⟨t.login, h.flows j _ hg⟩
  | refreshing n t =>
      cases n with
      | none => exact ⟨t.login, h.flows j _ hg⟩
      | some n => cases hs
  | _ => cases hs

theorem clears_phase (h : Inv s) (hg : s.flows j = some g) (hs : g.clears = true) : s.phase.Going := by
  cases g with
  | clearing n expiry half => exact (h.flows j _ hg).2.1
  | _ => cases hs

/-- **Outside the gaps of logins and clearings** nobody is signed in, or somebody who has both tokens
is. -/
theorem settled (h : Inv s) (hsigning : s.No Flow.signsIn) (hclearing : s.No Flow.clears) :
    s.phase = .out ∧ s.refreshToken = none ∨
      ∃ t, s.refreshToken = some t ∧ s.phase = .signedIn t.login := by
  have htokens := h.tokens
  cases hphase : s.phase with
  | out =>
      rw [hphase] at htokens
      exact .inl ⟨rfl, htokens.2⟩
  | signingIn x => exact absurd (h.signing x hphase) hsigning.not_some
  | leaving x => exact absurd (h.leaving x hphase) hclearing.not_some
  | signedIn x =>
      rw [hphase] at htokens
      obtain ⟨t, ht, rfl⟩ := Option.map_eq_some_iff.mp htokens.2
      exact .inr ⟨t, ht, rfl⟩

end Inv

/-! ## The steps of a flow -/

namespace Inv

/-- A login begins where no token is stored and nobody is half way in or out. -/
theorem login (h : Inv s) (hsigning : s.No Flow.signsIn)
    (hclearing : s.No Flow.clears) (haccess : s.accessToken = none) (hrefresh : s.refreshToken = none) :
    Inv (s.begin k (.login k)) := by
  have hout : s.phase = .out := by
    rcases h.settled hsigning hclearing with ⟨hout, -⟩ | ⟨t, ht, -⟩
    · exact hout
    · rw [hrefresh] at ht
      cases ht
  refine h.move { s.beginSession with phase := .signingIn s.logins, logins := s.logins + 1 }
    rfl rfl rfl ⟨?_, ?_⟩ (fun j g _ hg hok => ?_) rfl (fun _ j g hg hs => ?_) (fun _ _ => ?_) nofun
    (fun req hr => ?_)
  · intro u hu
    have hu : s.accessToken = some u := hu
    rw [haccess] at hu
    cases hu
  · intro u hu
    have hu : s.refreshToken = some u := hu
    rw [hrefresh] at hu
    cases hu
  · refine hok.keep (fun n hn => hn.newSession (Nat.lt_succ_self _)) ?_ (fun hc => ?_) ?_
    · rintro (hs | hs)
      · rw [hsigning j g hg] at hs
        cases hs
      · obtain ⟨x, hx⟩ := h.renews_phase hg hs
        rw [hout] at hx
        cases hx
    · rw [hclearing j g hg] at hc
      cases hc
    · rintro n t rfl heq
      exact absurd heq (hok.1.1.trans_lt (Nat.lt_succ_self _)).ne
  · rw [hsigning j g hg] at hs
    cases hs
  · exact State.some_flow rfl
  · exact hr.newSession (Nat.lt_succ_self _)

/-- A logout begins where nobody is half way in and no refresh is half way through. -/
theorem logout (h : Inv s) (hsigning : s.No Flow.signsIn) (hrenewing : s.No Flow.renews) :
    Inv (s.begin k (.logout k)) := by
  have hgoing : s.phase.leave.Going := by
    cases s.phase <;> trivial
  refine h.move { s.beginSession with phase := s.phase.leave } rfl rfl rfl h.tokens.leave
    (fun j g _ hg hok => ?_) ⟨nofun, hgoing, nofun⟩ nofun (fun x hx => absurd hx Phase.leave_ne.1)
    (fun _ _ => State.some_flow rfl) (fun req hr => ?_)
  · refine hok.keep (fun n hn => hn.newSession (Nat.lt_succ_self _)) ?_ (fun _ _ => ⟨hgoing, id⟩) ?_
    · rintro (hs | hs)
      · rw [hsigning j g hg] at hs
        cases hs
      · rw [hrenewing j g hg] at hs
        cases hs
    · rintro n t rfl heq
      exact absurd heq (hok.1.1.trans_lt (Nat.lt_succ_self _)).ne
  · exact hr.newSession (Nat.lt_succ_self _)

/-- `AuthRepository.refresh` -/
theorem refresh (h : Inv s) (hk : s.flows k = none) (hsigning : s.No Flow.signsIn)
    (hclearing : s.No Flow.clears) : Inv (s.begin k (.refresh k)) := by
  have hnew : ∀ g, s.flows k = some g → g.signsIn = false ∧ g.clears = false := by
    intro g hg
    rw [hk] at hg
    cases hg
  dsimp only [State.begin]
  rcases h.settled hsigning hclearing with ⟨hout, hnone⟩ | ⟨t, ht, hphase⟩
  · rw [hnone]
    refine h.turn hnew ⟨nofun, ?_, nofun⟩ rfl
    rw [hout]
    trivial
  · rw [ht]
    exact h.turn hnew hphase rfl

/-- **Somebody's session expires** when it is still theirs. -/
theorem expireSession (h : Inv s) (hk : ∀ g, s.flows k = some g → g.signsIn = false ∧ g.clears = false)
    (hlead : s.Leads k n) (hgap : n = s.session → s.No Flow.signsIn ∧ s.No Flow.renews) :
    Inv (s.expireSession k n) := by
  rw [State.expireSession]
  split
  · rename_i heq
    subst heq
    obtain ⟨hsigning, hrenewing⟩ := hgap rfl
    have hgoing : s.phase.leave.Going := by
      cases s.phase <;> trivial
    refine h.move { s with phase := s.phase.leave } rfl rfl rfl h.tokens.leave
      (fun j g hne hg hok => ?_) ⟨fun _ => hlead, hgoing, nofun⟩ nofun
      (fun x hx => absurd hx Phase.leave_ne.1) (fun _ _ => State.some_flow rfl)
      (fun req hr => hr.same rfl fun x hx => Phase.owner_leave ▸ hx)
    refine hok.keep (fun n hn => hn) ?_ (fun _ _ => ⟨hgoing, id⟩) ?_
    · rintro (hs | hs)
      · rw [hsigning j g hg] at hs
        cases hs
      · rw [hrenewing j g hg] at hs
        cases hs
    · -- the session has one refresh of the client, and this is it
      rintro m t rfl heq
      have hfuture := (hok.1.2 heq).symm.trans (hlead.2 rfl)
      exact absurd (Prod.mk.inj (Option.some.inj hfuture)).1 hne
  · exact h.turn hk trivial rfl

/-- **The compare of a refresh.** A pair that comes late is dropped. -/
theorem answered (h : Inv s) {m : Option Nat} {t : Token} (hk : s.flows k = some (.refreshing m t))
    {o : Outcome} (hmeets : Meets s (.reply k o)) : Inv (s.answered k m t o) := by
  have hnew : ∀ g, s.flows k = some g → g.signsIn = false ∧ g.clears = false := by
    intro g hg
    rw [hk] at hg
    obtain rfl := Option.some.inj hg
    exact ⟨rfl, rfl⟩
  have hok := h.flows k _ hk
  cases o with
  | ok no =>
      rw [State.answered]
      split
      · rename_i hsame
        refine h.turn hnew ?_ rfl
        cases m with
        | none => exact hok
        | some m => exact hok.2 (of_decide_eq_true hsame)
      · exact h.turn hnew trivial rfl
  | refused =>
      cases m with
      | none => exact h.turn hnew trivial rfl
      | some m =>
          refine h.expireSession hnew hok.1 ?_
          rintro rfl
          refine ⟨fun j g hg => ?_, hmeets t hk⟩
          -- whoever waits for the answer of their own session is signed in
          by_contra hs
          obtain ⟨x, hx⟩ := h.signsIn_phase hg (by simpa using hs)
          rw [hok.2 rfl] at hx
          cases hx
  | failed => exact h.turn hnew trivial rfl

/-- A refresh reads the token of the session it is in. -/
theorem readRefreshToken (h : Inv s) (hk : s.flows k = some (.reading n)) (hsigning : s.No Flow.signsIn)
    (hclearing : s.No Flow.clears) : Inv (s.actFlow k (.readRefreshToken k) (.reading n)) := by
  have hnew : ∀ g, s.flows k = some g → g.signsIn = false ∧ g.clears = false := by
    intro g hg
    rw [hk] at hg
    obtain rfl := Option.some.inj hg
    exact ⟨rfl, rfl⟩
  have hlead : s.Leads k n := h.flows k _ hk
  dsimp only [State.actFlow]
  rcases h.settled hsigning hclearing with ⟨hout, hnone⟩ | ⟨t, ht, hphase⟩
  · rw [hnone]
    refine h.expireSession hnew hlead fun _ => ⟨hsigning, fun j g hg => ?_⟩
    by_contra hs
    obtain ⟨x, hx⟩ := h.renews_phase hg (by simpa using hs)
    rw [hout] at hx
    cases hx
  · rw [ht]
    exact h.turn hnew ⟨hlead, fun _ => hphase⟩ rfl

/-! ### Writing -/

/-- A login writes its tokens. -/
theorem store (h : Inv s) {x : LoginId} {half : Bool} (hk : s.flows k = some (.storing x half)) :
    Inv (s.writeStorage k (.storing x half)) := by
  have hphase : s.phase = .signingIn x := h.flows k _ hk
  have hown : s.phase.Allows s.accessToken s.refreshToken := h.tokens
  rw [hphase] at hown
  have halone : ∀ j g, s.flows j = some g → g.signsIn = true → j = k := fun j g hg hs =>
    h.alone j k g _ hg hk hs rfl
  have hclears : ∀ {j g}, s.flows j = some g → g.clears ≠ true := by
    intro j g hg hc
    have hgoing := h.clears_phase hg hc
    rw [hphase] at hgoing
    exact hgoing
  cases half with
  | false =>
      refine h.move { s with accessToken := some ⟨x, 0⟩ } rfl rfl rfl ?_
        (fun j g _ hg hok => ?_) hphase (fun _ => halone) (fun _ _ => State.some_flow rfl) ?_
        fun req hr => hr.same rfl fun _ hx => hx
      · show s.phase.Allows _ _
        rw [hphase]
        refine ⟨?_, hown.2⟩
        rintro u ⟨⟩
        rfl
      · exact hok.keep (fun n hn => hn) (fun _ => rfl) (fun hc => absurd hc (hclears hg))
          fun _ _ _ heq => ⟨heq, rfl⟩
      · intro y hy
        rw [hphase] at hy
        cases hy
  | true =>
      have henter : s.phase.enter x = .signedIn x := by rw [Phase.enter, if_pos hphase]
      refine h.move { s with refreshToken := some ⟨x, 0⟩, phase := s.phase.enter x } rfl rfl rfl
        ?_ (fun j g hne hg hok => ?_) trivial nofun ?_ ?_ fun req hr => hr.same rfl fun y hy => ?_
      · show (s.phase.enter x).Allows _ _
        rw [henter]
        exact ⟨hown.1, rfl⟩
      · refine hok.keep (fun n hn => hn) ?_ (fun hc => absurd hc (hclears hg)) ?_
        · rintro (hs | hs)
          · exact absurd (halone j g hg hs) hne
          · obtain ⟨y, hy⟩ := h.renews_phase hg hs
            rw [hphase] at hy
            cases hy
        · rintro n t rfl heq
          have hin := hok.2 heq
          rw [hphase] at hin
          cases hin
      · intro y hy
        have hy : s.phase.enter x = .signingIn y := hy
        rw [henter] at hy
        cases hy
      · intro y hy
        have hy : s.phase.enter x = .leaving y := hy
        rw [henter] at hy
        cases hy
      · have hy : (s.phase.enter x).owner = some y := hy
        rw [henter] at hy
        rw [hphase]
        exact hy

/-- So does a refresh. -/
theorem replace (h : Inv s) {t : Token} {half : Bool} (hk : s.flows k = some (.replacing t half)) :
    Inv (s.writeStorage k (.replacing t half)) := by
  have hphase : s.phase = .signedIn t.login := h.flows k _ hk
  have hown : s.phase.Allows s.accessToken s.refreshToken := h.tokens
  rw [hphase] at hown
  have hclears : ∀ {j g}, s.flows j = some g → g.clears ≠ true := by
    intro j g hg hc
    have hgoing := h.clears_phase hg hc
    rw [hphase] at hgoing
    exact hgoing
  have hkeep : ∀ {s' : State}, s'.phase = s.phase → s'.session = s.session →
      s'.refreshFuture = s.refreshFuture → ∀ j g, j ≠ k → s.flows j = some g → FlowOk s j g →
        FlowOk s' j g := by
    intro s' hp hs hr j g _ hg hok
    exact hok.keep (fun n hn => hn.same hs hr) (fun _ => hp) (fun hc => absurd hc (hclears hg))
      fun n _ _ heq => ⟨heq.trans hs, hp⟩
  have hsigning : ∀ x, s.phase ≠ .signingIn x := fun x hx => by
    rw [hphase] at hx
    cases hx
  have hleaving : ∀ x, s.phase ≠ .leaving x := fun x hx => by
    rw [hphase] at hx
    cases hx
  cases half with
  | false =>
      refine h.move { s with accessToken := some t } rfl rfl rfl ?_ (hkeep rfl rfl rfl) hphase
        nofun (fun x hx => absurd hx (hsigning x)) (fun x hx => absurd hx (hleaving x))
        fun req hr => hr.same rfl fun _ hx => hx
      show s.phase.Allows _ _
      rw [hphase]
      refine ⟨?_, hown.2⟩
      rintro u ⟨⟩
      rfl
  | true =>
      refine h.move { s with refreshToken := some t } rfl rfl rfl ?_ (hkeep rfl rfl rfl) trivial
        nofun (fun x hx => absurd hx (hsigning x)) (fun x hx => absurd hx (hleaving x))
        fun req hr => hr.same rfl fun _ hx => hx
      show s.phase.Allows _ _
      rw [hphase]
      exact ⟨hown.1, rfl⟩

/-- What is cleared is of somebody who is leaving, or of nobody. -/
theorem clear (h : Inv s) {e half : Bool} (hk : s.flows k = some (.clearing n e half)) :
    Inv (s.writeStorage k (.clearing n e half)) := by
  obtain ⟨hlead, hgoing, haccess⟩ := h.flows k _ hk
  have hsigning : ∀ x, s.phase ≠ .signingIn x := fun x hx => by
    rw [hx] at hgoing
    exact hgoing
  have hsigned : ∀ x, s.phase ≠ .signedIn x := fun x hx => by
    rw [hx] at hgoing
    exact hgoing
  have hleft : s.phase.left = .out := by
    cases hphase : s.phase with
    | out | leaving x => rfl
    | signingIn x => exact absurd hphase (hsigning x)
    | signedIn x => exact absurd hphase (hsigned x)
  -- nobody signs in or renews meanwhile
  have hgap : ∀ {j g}, s.flows j = some g → ¬(g.signsIn = true ∨ g.renews = true) := by
    rintro j g hg (hs | hs)
    · obtain ⟨x, hx⟩ := h.signsIn_phase hg hs
      exact hsigning x hx
    · obtain ⟨x, hx⟩ := h.renews_phase hg hs
      exact hsigned x hx
  cases half with
  | false =>
      refine h.move { s with accessToken := none } rfl rfl rfl ?_ (fun j g _ hg hok => ?_)
        ⟨hlead, hgoing, fun _ => rfl⟩ nofun (fun x hx => absurd hx (hsigning x))
        (fun _ _ => State.some_flow rfl) fun req hr => hr.same rfl fun _ hx => hx
      · have htokens := h.tokens
        show s.phase.Allows none s.refreshToken
        cases hphase : s.phase with
        | out =>
            rw [hphase] at htokens
            exact ⟨rfl, htokens.2⟩
        | leaving x =>
            rw [hphase] at htokens
            exact ⟨nofun, htokens.2⟩
        | signingIn x => exact absurd hphase (hsigning x)
        | signedIn x => exact absurd hphase (hsigned x)
      · exact hok.keep (fun n hn => hn) (fun _ => rfl) (fun _ hgo => ⟨hgo, fun _ => rfl⟩)
          fun n _ _ heq => ⟨heq, rfl⟩
  | true =>
      have hcleared : ∀ f : Flow, f.signsIn = false →
          FlowOk { s with refreshToken := none, phase := s.phase.left } k f →
            Inv ({ s with refreshToken := none, phase := s.phase.left }.flow k f) := by
        intro f hf hok
        have hout : ∀ {p : Phase}, p ≠ .out → s.phase.left ≠ p := fun hp hx => hp (hx ▸ hleft)
        refine h.move { s with refreshToken := none, phase := s.phase.left } rfl rfl rfl ?_
          (fun j g _ hg hother => ?_) hok (fun hs => ?_) (fun x hx => absurd hx (hout nofun))
          (fun x hx => absurd hx (hout nofun)) fun req hr => hr.same rfl fun x hx => Phase.owner_left hx
        · show s.phase.left.Allows s.accessToken none
          rw [hleft]
          exact ⟨haccess rfl, rfl⟩
        · refine hother.keep (fun n hn => hn) (fun hs => absurd hs (hgap hg)) (fun _ _ => ⟨?_, id⟩) ?_
          · show s.phase.left.Going
            rw [hleft]
            trivial
          · rintro m t rfl heq
            exact absurd (hother.2 heq) (hsigned _)
        · rw [hf] at hs
          cases hs
      cases e with
      | false => exact hcleared _ rfl trivial
      | true => exact hcleared _ rfl (hlead rfl)

theorem write (h : Inv s) (hk : s.flows k = some f) : Inv (s.writeStorage k f) := by
  cases f with
  | storing x half => exact h.store hk
  | replacing t half => exact h.replace hk
  | clearing n e half => exact h.clear hk
  | cleared | reading | refreshing | ended => exact h

/-- The end of an expiry counts the session up, unless it is over. -/
theorem expire (h : Inv s) (hk : s.flows k = some (.cleared n)) :
    Inv (s.actFlow k (.expire k) (.cleared n)) := by
  have hnew : ∀ g, s.flows k = some g → g.signsIn = false ∧ g.clears = false := by
    intro g hg
    rw [hk] at hg
    obtain rfl := Option.some.inj hg
    exact ⟨rfl, rfl⟩
  show Inv (if _ then _ else _)
  split
  · refine h.move s.beginSession rfl rfl rfl h.tokens (fun j g _ _ hok => ?_) trivial nofun
      (fun x hx => (h.signing x hx).flow fun g hg => (hnew g hg).1)
      (fun x hx => (h.leaving x hx).flow fun g hg => (hnew g hg).2)
      fun req hr => hr.newSession (Nat.lt_succ_self _)
    refine hok.keep (fun n hn => hn.newSession (Nat.lt_succ_self _)) (fun _ => rfl)
      (fun _ hgo => ⟨hgo, id⟩) ?_
    rintro m t rfl heq
    exact absurd heq (hok.1.1.trans_lt (Nat.lt_succ_self _)).ne
  · exact h.turn hnew trivial rfl

/-- The future of a refresh that is over is let go. Nobody else's refresh of the session hangs on it. -/
theorem release (h : Inv s) {o : Option Bool} (hk : s.flows k = some (.ended o)) :
    Inv (s.actFlow k (.release k) (.ended o)) := by
  show Inv (if _ then _ else s)
  split
  · rename_i hmine
    have hlead : ∀ {j n}, j ≠ k → s.Leads j n → State.Leads { s with refreshFuture := none } j n := by
      intro j n hne hn
      refine ⟨hn.1, fun heq => ?_⟩
      rw [hn.2 heq] at hmine
      exact absurd (of_decide_eq_true hmine) hne
    have hflows : ∀ j g, s.flows j = some g → FlowOk { s with refreshFuture := none } j g := by
      intro j g hg
      by_cases hne : j = k
      · subst hne
        rw [hk] at hg
        obtain rfl := Option.some.inj hg
        trivial
      · exact (h.flows j g hg).keep (fun n hn => hlead hne hn) (fun _ => rfl)
          (fun _ hgo => ⟨hgo, id⟩) fun n _ _ heq => ⟨heq, rfl⟩
    exact ⟨⟨h.tokens, h.sends⟩, hflows, h.alone, h.signing, h.leaving,
      fun r req hr => (h.requests r req hr).same rfl fun _ hx => hx⟩
  · exact h

end Inv

/-! ## The steps of a request -/

/-- A stage that has read no token. -/
theorem RequestOk.stage (h : RequestOk s req) (hst : st.token = none) :
    RequestOk s { req with stage := st } where
  le := h.le
  owner := h.owner
  token := by
    intro _ t ht
    rw [hst] at ht
    cases ht

namespace Inv

theorem begun (h : Inv s) : Inv (s.stage r ⟨s.session, s.phase.owner, .begun⟩ .begun) :=
  h.stage ⟨le_rfl, fun _ _ hx => hx, fun _ _ ht => nomatch ht⟩

/-- **What a request reads** is of whom it was begun by, unless somebody else has come since. -/
theorem readToken (h : Inv s) (hreq : RequestOk s req) (w : Option Token) (retry : Bool) :
    Inv (s.stage r req (.headed w s.accessToken retry)) := by
  refine h.stage ⟨hreq.le, hreq.owner, fun heq t ht => ?_⟩
  exact hreq.owner heq t.login (h.tokens.own ht)

/-- **What a request carries**: it is compared after the token was read. -/
theorem send (h : Inv s) (hreq : RequestOk s req) (w token : Option Token) (retry : Bool)
    (hst : req.stage = .headed w token retry) :
    Inv (s.actRequest r req (.send r) (.headed w token retry)) := by
  show Inv (if _ then _ else _)
  split
  · rename_i heq
    have hsends : ∀ d ∈ (⟨req.startedBy, token, retry⟩ : Send) :: s.sends, d.Own := by
      refine List.forall_mem_cons.mpr ⟨fun t ht => ?_, h.sends⟩
      refine hreq.token heq t ?_
      rw [hst]
      exact ht
    refine Inv.stage (s := { s with sends := ⟨req.startedBy, token, retry⟩ :: s.sends })
      ⟨⟨h.tokens, hsends⟩, h.flows, h.alone, h.signing, h.leaving,
        fun r req hr => (h.requests r req hr).same rfl fun _ hx => hx⟩ ?_
    exact (hreq.stage rfl).same rfl fun _ hx => hx
  · exact h.stage (hreq.stage rfl)

/-- A request that was refused joins the refresh of its session, or begins it. -/
theorem handleTokenRefresh (h : Inv s) (hreq : RequestOk s req) :
    Inv (s.actRequest r req (.handleTokenRefresh r k) .toRefresh) := by
  dsimp only [State.actRequest]
  split
  · exact h.stage (hreq.stage rfl)
  · rename_i hfuture hk
    have hnone : ∀ j, ¬s.Leads j s.session := by
      intro j hj
      rw [hj.2 rfl] at hfuture
      simp at hfuture
    have hlead : ∀ {j n}, s.Leads j n →
        State.Leads { s with refreshFuture := some (k, s.session) } j n := by
      intro j n hn
      refine ⟨hn.1, fun heq => ?_⟩
      obtain rfl : n = s.session := heq
      exact absurd hn (hnone j)
    refine Inv.stage ?_ ((hreq.stage rfl).same rfl fun _ hx => hx)
    have hfree : ∀ g, s.flows k ≠ some g := fun g hg => by
      rw [hk] at hg
      cases hg
    exact h.move { s with refreshFuture := some (k, s.session) } rfl rfl rfl h.tokens
      (fun j g _ _ hok => hok.keep (fun n hn => hlead hn) (fun _ => rfl) (fun _ hgo => ⟨hgo, id⟩)
        fun n _ _ heq => ⟨heq, rfl⟩)
      ⟨le_rfl, fun _ => rfl⟩ nofun
      (fun x hx => (h.signing x hx).flow fun g hg => absurd hg (hfree g))
      (fun x hx => (h.leaving x hx).flow fun g hg => absurd hg (hfree g))
      fun req hr => hr.same rfl fun _ hx => hx
  · exact h

/-- Whatever a request does next. -/
theorem actRequest (h : Inv s) (hreq : RequestOk s req) {a : Act} (hst : st = req.stage) :
    Inv (s.actRequest r req a st) := by
  unfold State.actRequest
  split
  · exact h.stage (hreq.stage rfl)
  · exact h.readToken hreq _ _
  · exact h.send hreq _ _ _ hst.symm
  · exact h.stage (hreq.stage rfl)
  · split
    · exact h.stage (hreq.stage rfl)
    · exact h.stage (hreq.stage rfl)
  · split
    · exact h.stage (hreq.stage rfl)
    · exact h.stage (hreq.stage rfl)
  · exact h.handleTokenRefresh hreq
  · split
    · split
      · exact h.stage (hreq.stage rfl)
      · exact h.stage (hreq.stage rfl)
    · exact h
  · exact h

end Inv

/-! ## Runs -/

/-- **One act keeps the isolation.** -/
theorem Inv.step {a : Act} (h : Inv s) (hmeets : Meets s a) : Inv (step a s) := by
  -- a flow or a request that is not there leaves everything as it is
  cases a with
  -- what begins a flow or a request needs that there is none under its number
  | login k =>
      simp only [Session.step]
      split
      · exact h.login hmeets.1 hmeets.2.1 hmeets.2.2.1 hmeets.2.2.2
      · exact h
  | logout k =>
      simp only [Session.step]
      split
      · exact h.logout hmeets.1 hmeets.2
      · exact h
  | refresh k =>
      simp only [Session.step]
      split
      · exact h.refresh ‹_› hmeets.1 hmeets.2
      · exact h
  -- every other act goes on with the flow or the request that is there
  | write k =>
      simp only [Session.step]
      cases hf : s.flows k with
      | none => exact h
      | some f => exact h.write hf
  | readRefreshToken k =>
      simp only [Session.step]
      cases hf : s.flows k with
      | none => exact h
      | some f =>
          cases f with
          | reading n => exact h.readRefreshToken hf hmeets.1 hmeets.2
          | storing | replacing | clearing | cleared | refreshing | ended => exact h
  | reply k o =>
      simp only [Session.step]
      cases hf : s.flows k with
      | none => exact h
      | some f =>
          cases f with
          | refreshing n t => exact h.answered hf hmeets
          | storing | replacing | clearing | cleared | reading | ended => exact h
  | expire k =>
      simp only [Session.step]
      cases hf : s.flows k with
      | none => exact h
      | some f =>
          cases f with
          | cleared n => exact h.expire hf
          | storing | replacing | clearing | refreshing | reading | ended => exact h
  | release k =>
      simp only [Session.step]
      cases hf : s.flows k with
      | none => exact h
      | some f =>
          cases f with
          | ended o => exact h.release hf
          | storing | replacing | clearing | refreshing | reading | cleared => exact h
  | request r =>
      simp only [Session.step]
      split
      · exact h.begun
      · exact h
  | readSentWith r | readToken r | send r | answer r _ | check r | compare r | handleTokenRefresh r k
  | resume r =>
      simp only [Session.step]
      cases hr : s.requests r with
      | none => exact h
      | some req => exact h.actRequest (h.requests r req hr) rfl

theorem run_inv {acts : List Act} (h : Inv s) (hmeets : AllMeet Meets acts s) : Inv (run acts s) := by
  induction acts generalizing s with
  | nil => exact h
  | cons a acts ih => exact ih (h.step hmeets.1) hmeets.2

/-- **Session isolation.** In a run in which nobody signs in or out, and no session expires, between
another's compare of the session and its writes, the tokens are of the one who signed in last, and no
request carries another's. -/
theorem run_isolated (h : s.Start) (acts : List Act) (hmeets : AllMeet Meets acts s) :
    (run acts s).Isolated :=
  (run_inv (.start h) hmeets).toIsolated

/-! ## A counter where people take turns -/

/-- Nobody is signed in, and nothing is on its way. -/
def empty : State :=
  { session := 0
    accessToken := none
    refreshToken := none
    flows := fun _ => none
    refreshFuture := none
    requests := fun _ => none
    logins := 0
    phase := .out
    sends := [] }

theorem empty_start : empty.Start where
  tokens := ⟨rfl, rfl⟩
  settled := fun _ => ⟨nofun, nofun⟩
  flows := fun _ => rfl
  requests := fun _ => rfl
  sends := rfl

/-- Somebody signs in, undisturbed. -/
def signsIn (k : Nat) : List Act := [.login k, .write k, .write k]

def signsOut (k : Nat) : List Act := [.logout k, .write k, .write k]

/-- A request is sent and refused as unauthorized. -/
def unauthorized (r : Nat) : List Act :=
  [.request r, .readSentWith r, .readToken r, .send r, .answer r true, .check r, .compare r]

/-- Where few flows have begun, it is decided whether one is in a gap. -/
theorem no_of_few (N : Nat) (hfew : ∀ k < N, ((s.flows k).all fun f => !p f) = true)
    (hrest : ∀ k, s.flows (k + N) = none) : s.No p := by
  intro k f hf
  rcases Nat.lt_or_ge k N with hk | hk
  · have hk := hfew k hk
    rw [hf] at hk
    simpa using hk
  · rw [← Nat.sub_add_cancel hk, hrest] at hf
    cases hf

/-- The refresh of the first person is answered when the next one has signed in. -/
def turns : List Act :=
  signsIn 0 ++ unauthorized 0 ++ [Act.handleTokenRefresh 0 1, .readRefreshToken 1] ++ signsOut 2 ++
    signsIn 3 ++ [Act.reply 1 (.ok 1), .resume 0] ++ unauthorized 1 ++
    [Act.handleTokenRefresh 1 4, .readRefreshToken 4, .release 1, .reply 4 (.ok 1), .write 4, .write 4,
      .release 4, .resume 1, .readToken 1, .send 1]

theorem run_isolated_of_turns : (run turns empty).Isolated ∧
    (run turns empty).accessToken = some ⟨1, 1⟩ ∧ (run turns empty).refreshToken = some ⟨1, 1⟩ := by
  refine ⟨run_isolated empty_start turns ?_, by decide, by decide⟩
  refine ⟨⟨?_, ?_, rfl, rfl⟩, trivial, trivial, trivial, trivial, trivial, trivial, trivial, trivial, trivial,
    trivial, ⟨?_, ?_⟩, ⟨?_, ?_⟩, trivial, trivial, ⟨?_, ?_, rfl, rfl⟩, trivial, trivial, trivial, trivial,
    trivial, trivial, trivial, trivial, trivial, trivial, trivial, trivial, ⟨?_, ?_⟩, trivial, trivial,
    trivial, trivial, trivial, trivial, trivial, trivial, trivial⟩
  all_goals exact no_of_few 5 (by decide) fun _ => rfl

/-- **Six ways to mix sessions.** A refresh that compares no session is answered after the next
login; a refresh is half written when the next person signs in; a refused one clears the tokens of the
next person; a logout comes between the two writes of a login; a refresh reads the token of somebody
whose logout has counted the session up and not removed it yet; and a request of the next person is
retried with the token that a late refresh has written. -/
theorem turns_mixed : empty.Start ∧
    ¬(run (signsIn 0 ++ [Act.refresh 1] ++ signsOut 2 ++ signsIn 3 ++ [Act.reply 1 (.ok 1), .write 1, .write 1])
      empty).Isolated ∧
    ¬(run (signsIn 0 ++ unauthorized 0 ++ [Act.handleTokenRefresh 0 1, .readRefreshToken 1,
      .reply 1 (.ok 1), .write 1] ++ signsOut 2 ++ signsIn 3 ++ [Act.write 1]) empty).Isolated ∧
    ¬(run (signsIn 0 ++ unauthorized 0 ++ [Act.handleTokenRefresh 0 1, .readRefreshToken 1,
      .reply 1 .refused] ++ signsOut 2 ++ signsIn 3 ++ [Act.write 1, .write 1]) empty).Isolated ∧
    ¬(run ([Act.login 0, .write 0] ++ signsOut 1 ++ [Act.write 0]) empty).Isolated ∧
    ¬(run (signsIn 0 ++ [Act.logout 2] ++ unauthorized 0 ++ [Act.handleTokenRefresh 0 1, .readRefreshToken 1,
      .write 2, .write 2, .reply 1 (.ok 1), .write 1, .write 1]) empty).Isolated ∧
    ¬(run (signsIn 0 ++ [Act.refresh 1] ++ signsOut 2 ++ signsIn 3 ++
      [Act.request 0, .readSentWith 0, .readToken 0, .send 0, .answer 0 true, .check 0,
        .reply 1 (.ok 1), .write 1, .compare 0, .readToken 0, .send 0]) empty).Isolated := by
  refine ⟨empty_start, fun h => ?_, fun h => ?_, fun h => ?_, fun h => ?_, fun h => ?_, fun h => ?_⟩
  · exact absurd h.tokens.2 (by decide)
  · exact absurd h.tokens.2 (by decide)
  · exact absurd h.tokens.2 (by decide)
  · exact absurd h.tokens.2 (by decide)
  · exact absurd h.tokens.2 (by decide)
  · exact absurd (h.sends _ List.mem_cons_self ⟨0, 1⟩ rfl) (by decide)

end Session
