import Mathlib.Logic.Function.Basic
import Mathlib.Data.Option.Basic
import Mathlib.Order.Basic
import Mathlib.Algebra.Order.Group.Nat

/-! # The session of a till (`api_client.dart`, `auth_repository.dart`)

The two tokens of whoever is signed in are stored by two writes. Logins, logouts, refreshes, expiries
and requests of whomever run interleaved, and any of them may switch to another wherever it waits. A
number, `_session`, counts the logins and logouts; what was begun under an older one should touch
nothing. -/

namespace Session

/-- One login of one person. -/
abbrev LoginId := Nat

/-- An access or a refresh token: whose it is, and which of theirs. -/
structure Token where
  login : LoginId
  no : Nat
  deriving DecidableEq

/-- Who is signed in. -/
inductive Phase where
  | out
  | signingIn (x : LoginId)
  | signedIn (x : LoginId)
  | leaving (x : LoginId)
  deriving DecidableEq

namespace Phase

def owner : Phase → Option LoginId
  | .out => none
  | .signingIn x | .signedIn x | .leaving x => some x

/-- A logout or an expiry begins. -/
def leave : Phase → Phase
  | .out => .out
  | .signingIn x | .signedIn x | .leaving x => .leaving x

/-- Both tokens are cleared. -/
def left : Phase → Phase
  | .leaving _ => .out
  | p          => p

/-- Both tokens of `x` are stored. -/
def enter (x : LoginId) (p : Phase) : Phase := if p = .signingIn x then .signedIn x else p

end Phase

/-- Where something that is about the tokens waits. `half` says that the access token is done, and
`session` is the number it was begun under. -/
inductive Flow where
  /-- `_storeSession`, about to write -/
  | storing (x : LoginId) (half : Bool)
  /-- about to write the pair that a refresh brought -/
  | replacing (t : Token) (half : Bool)
  /-- in `clearAuthTokens`, which an `expiry` goes on from -/
  | clearing (session : Nat) (expiry half : Bool)
  /-- `_expireSession` after `clearAuthTokens` -/
  | cleared (session : Nat)
  /-- `_executeRefresh`, about to read the refresh token -/
  | reading (session : Nat)
  /-- on the wire; `AuthRepository.refresh` compares no session -/
  | refreshing (session : Option Nat) (sent : Token)
  /-- over, with what it returned if it did not throw -/
  | ended (refreshed : Option Bool)
  deriving DecidableEq

/-- Where a request waits. `sentWith` is the access token when it began. -/
inductive Stage where
  | begun
  | heading (sentWith : Option Token) (retry : Bool)
  /-- `_buildHeaders` has read the token -/
  | headed (sentWith token : Option Token) (retry : Bool)
  | sent (sentWith : Option Token) (retry : Bool)
  | answered (sentWith : Option Token) (retry unauthorized : Bool)
  | refused (sentWith : Option Token)
  | toRefresh
  | waiting (flow : Nat)
  | done
  deriving DecidableEq

structure Request where
  session : Nat
  /-- who was signed in when it began -/
  startedBy : Option LoginId
  stage : Stage
  deriving DecidableEq

/-- A request that left. -/
structure Send where
  startedBy : Option LoginId
  token : Option Token
  retry : Bool
  deriving DecidableEq

structure State where
  /-- `_session` -/
  session : Nat
  accessToken : Option Token
  refreshToken : Option Token
  flows : Nat → Option Flow
  /-- `_refreshFuture` with `_refreshFutureSession` -/
  refreshFuture : Option (Nat × Nat)
  requests : Nat → Option Request
  logins : Nat
  phase : Phase
  /-- newest first -/
  sends : List Send

/-- What comes of a refresh. It is refused as well when the device token is gone. -/
inductive Outcome where
  | ok (no : Nat)
  | refused
  | failed

inductive Act where
  /-- a login is answered and admitted -/
  | login (k : Nat)
  | logout (k : Nat)
  /-- `AuthRepository.refresh` -/
  | refresh (k : Nat)
  /-- the next write of the flow to the token storage -/
  | write (k : Nat)
  | readRefreshToken (k : Nat)
  | reply (k : Nat) (o : Outcome)
  | expire (k : Nat)
  | release (k : Nat)
  | request (r : Nat)
  | readSentWith (r : Nat)
  | readToken (r : Nat)
  | send (r : Nat)
  | answer (r : Nat) (unauthorized : Bool)
  | check (r : Nat)
  | compare (r : Nat)
  /-- `_handleTokenRefresh`, as the flow `k` unless there is one -/
  | handleTokenRefresh (r k : Nat)
  | resume (r : Nat)

namespace State

variable (s : State)

def flow (k : Nat) (f : Flow) : State := { s with flows := Function.update s.flows k (some f) }

def stage (r : Nat) (req : Request) (st : Stage) : State :=
  { s with requests := Function.update s.requests r (some { req with stage := st }) }

/-- `beginSession` -/
def beginSession : State := { s with session := s.session + 1 }

/-- `_expireSession` up to its first wait. -/
def expireSession (k session : Nat) : State :=
  if session = s.session then { s with phase := s.phase.leave }.flow k (.clearing session true false)
  else s.flow k (.ended (some false))

/-- Writes or removes a token, the access token first. -/
def writeStorage (k : Nat) : Flow → State
  | .storing x false      => { s with accessToken := some ⟨x, 0⟩ }.flow k (.storing x true)
  | .storing x true       =>
      { s with refreshToken := some ⟨x, 0⟩, phase := s.phase.enter x }.flow k (.ended none)
  | .replacing t false    => { s with accessToken := some t }.flow k (.replacing t true)
  | .replacing t true     => { s with refreshToken := some t }.flow k (.ended (some true))
  | .clearing n e false   => { s with accessToken := none }.flow k (.clearing n e true)
  | .clearing n true true =>
      { s with refreshToken := none, phase := s.phase.left }.flow k (.cleared n)
  | .clearing _ false true =>
      { s with refreshToken := none, phase := s.phase.left }.flow k (.ended none)
  | _ => s

/-- The refresh is answered. A pair that comes for an older session is dropped. -/
def answered (k : Nat) (session : Option Nat) (sent : Token) : Outcome → State
  | .ok no =>
      if session.all (· = s.session) then s.flow k (.replacing ⟨sent.login, no⟩ false)
      else s.flow k (.ended (some false))
  | .refused => session.elim (s.flow k (.ended none)) fun n => s.expireSession k n
  | .failed  => s.flow k (.ended none)

/-- One act of a flow. -/
def actFlow (k : Nat) : Act → Flow → State
  | .write _, f => s.writeStorage k f
  | .readRefreshToken _, .reading n =>
      match s.refreshToken with
      | none   => s.expireSession k n
      | some t => s.flow k (.refreshing (some n) t)
  | .reply _ o, .refreshing n t => s.answered k n t o
  | .expire _, .cleared n =>
      if n = s.session then s.beginSession.flow k (.ended (some false))
      else s.flow k (.ended (some false))
  | .release _, .ended _ =>
      if s.refreshFuture.any (·.1 = k) then { s with refreshFuture := none } else s
  | _, _ => s

/-- One act of a request. -/
def actRequest (r : Nat) (req : Request) : Act → Stage → State
  | .readSentWith _, .begun => s.stage r req (.heading s.accessToken false)
  | .readToken _, .heading w retry => s.stage r req (.headed w s.accessToken retry)
  | .send _, .headed w token retry =>
      -- a request of an older session never leaves, and reads as unauthorized
      if req.session = s.session then
        { s with sends := ⟨req.startedBy, token, retry⟩ :: s.sends }.stage r req (.sent w retry)
      else s.stage r req (.answered w retry true)
  | .answer _ unauthorized, .sent w retry => s.stage r req (.answered w retry unauthorized)
  | .check _, .answered w retry unauthorized =>
      if unauthorized && !retry && req.session = s.session then s.stage r req (.refused w)
      else s.stage r req .done
  | .compare _, .refused w =>
      if s.accessToken ≠ none ∧ s.accessToken ≠ w then s.stage r req (.heading w true)
      else s.stage r req .toRefresh
  | .handleTokenRefresh _ k, .toRefresh =>
      match s.refreshFuture.filter (·.2 = s.session), s.flows k with
      | some (j, _), _ => s.stage r req (.waiting j)
      | none, none     =>
          ({ s with refreshFuture := some (k, s.session) }.flow k (.reading s.session)).stage r req
            (.waiting k)
      | none, some _   => s
  | .resume _, .waiting j =>
      match s.flows j with
      | some (.ended refreshed) =>
          if refreshed = some true ∧ req.session = s.session then s.stage r req (.heading none true)
          else s.stage r req .done
      | _ => s
  | _, _ => s

/-- A new flow. -/
def begin (k : Nat) : Act → State
  | .login _   => { s.beginSession with phase := .signingIn s.logins, logins := s.logins + 1 }.flow k
      (.storing s.logins false)
  | .logout _  => { s.beginSession with phase := s.phase.leave }.flow k
      (.clearing (s.session + 1) false false)
  | .refresh _ =>
      match s.refreshToken with
      | none   => s.flow k (.clearing s.session false false)
      | some t => s.flow k (.refreshing none t)
  | _ => s

end State

/-- One act. Where what it is about is elsewhere, nothing happens. -/
def step (a : Act) (s : State) : State :=
  match a with
  | .login k | .logout k | .refresh k =>
      match s.flows k with
      | none   => s.begin k a
      | some _ => s
  | .write k | .readRefreshToken k | .reply k _ | .expire k | .release k =>
      match s.flows k with
      | none   => s
      | some f => s.actFlow k a f
  | .request r =>
      match s.requests r with
      | none   =>
          { s with requests :=
              Function.update s.requests r (some ⟨s.session, s.phase.owner, .begun⟩) }
      | some _ => s
  | .readSentWith r | .readToken r | .send r | .answer r _ | .check r | .compare r
  | .handleTokenRefresh r _ | .resume r =>
      match s.requests r with
      | none     => s
      | some req => s.actRequest r req a req.stage

def run (acts : List Act) (s : State) : State := acts.foldl (fun s a => step a s) s

/-- Every act of the run meets `P`. -/
def AllMeet (P : State → Act → Prop) : List Act → State → Prop
  | [], _        => True
  | a :: acts, s => P s a ∧ AllMeet P acts (step a s)

/-! ## Isolation -/

/-- The token is none but of `x`. -/
def OnlyOf (x : LoginId) (t : Option Token) : Prop := ∀ u, t = some u → u.login = x

/-- The tokens that may be stored: of the one who signed in last. A reload of the page forgets the
access token. -/
def Phase.Allows : Phase → Option Token → Option Token → Prop
  | .out, access, refresh => access = none ∧ refresh = none
  | .signingIn x, access, refresh | .leaving x, access, refresh => OnlyOf x access ∧ OnlyOf x refresh
  | .signedIn x, access, refresh => OnlyOf x access ∧ refresh.map Token.login = some x

/-- What a request carried is of the one who began it. -/
def Send.Own (d : Send) : Prop := ∀ t, d.token = some t → d.startedBy = some t.login

/-- The tokens are of one session, the latest, and no request carried another's. -/
structure State.Isolated (s : State) : Prop where
  tokens : s.phase.Allows s.accessToken s.refreshToken
  sends : ∀ d ∈ s.sends, d.Own

/-- The app has started: nothing is on its way, and the tokens are of who is signed in, if anybody.
Nobody is half way in or out. -/
structure State.Start (s : State) : Prop where
  tokens : s.phase.Allows s.accessToken s.refreshToken
  settled : ∀ x, s.phase ≠ .signingIn x ∧ s.phase ≠ .leaving x
  flows : ∀ k, s.flows k = none
  requests : ∀ r, s.requests r = none
  sends : s.sends = []

/-! ## The gaps -/

/-- A login that has not written both tokens yet. -/
def Flow.signsIn : Flow → Bool
  | .storing _ _ => true
  | _            => false

/-- A refresh that has compared the session, or that compares none, with a token still to write. -/
def Flow.renews : Flow → Bool
  | .replacing _ _     => true
  | .refreshing none _ => true
  | _                  => false

/-- In `clearAuthTokens`, with a token still to remove. -/
def Flow.clears : Flow → Bool
  | .clearing _ _ _ => true
  | _               => false

/-- No flow is in the gap `p`. -/
def State.No (s : State) (p : Flow → Bool) : Prop := ∀ k f, s.flows k = some f → p f = false

/-- What removes tokens or counts a session up comes into no other's gap between comparing the session
and writing, and what reads a refresh token reads it in no such gap. A login finds no token. Everything
else may come at any time: replies, requests, retries and writes. -/
def Meets (s : State) : Act → Prop
  | .login _ =>
      s.No Flow.signsIn ∧ s.No Flow.clears ∧ s.accessToken = none ∧ s.refreshToken = none
  | .logout _ => s.No Flow.signsIn ∧ s.No Flow.renews
  | .refresh _ | .readRefreshToken _ => s.No Flow.signsIn ∧ s.No Flow.clears
  | .reply k .refused =>
      ∀ t, s.flows k = some (.refreshing (some s.session) t) → s.No Flow.renews
  | _ => True

end Session
