import Mathlib
import Waterbox.Cloud.Passes
import Waterbox.Portal.Navigation

namespace Waterbox

namespace Portal

/-!
# Who may act for an account

The portal over time: browsers register, log in and ask the routes with their cookies, in any order,
while the worker goes on.

* `Site` — the tables, the worker, and the tokens that responses have set.
* `Site.step` — one request, or one action of the worker.
* `respond_writes` — what a route writes, if it writes.
* `Fenced` — the tokens of a stranger to an account are tokens of other accounts.
* `strangers_leave` — who never gives the password of an account changes nothing of it.
-/

open Cloud Runs

/-- What the pages get from `jose`: tokens that are signed, and at each moment those that are
    accepted. -/
structure Tokens (V N : Type) where
  /-- `new SignJWT(session)` signed with a secret, at a moment. -/
  sign : Str → Session → Nat → Str
  jose : Nat → Jose V N

/-- A token that is accepted holds the claims that were signed. -/
class LawfulTokens {V N : Type} (tokens : Tokens V N) : Prop where
  claims : ∀ {secret : Str} {session : Session} {issuedAt now : Nat} {userId email : V},
    (tokens.jose now).jwtVerify (tokens.sign secret session issuedAt) secret =
        some (userId, email) →
      (tokens.jose now).integer ((tokens.jose now).number userId) = some session.userId

/-- A token that a response has set. -/
structure Issue (B : Type) where
  browser : B
  token : Str
  session : Session
deriving DecidableEq

structure Site (B N : Type) where
  world : World N
  users : List PortalUser
  portalMeters : List (PortalMeter N)
  nextUserId : Nat
  issued : List (Issue B)

/-- What comes to the site: a request of a browser, with the moment at which it comes, or an action
    of the worker. -/
inductive Call (B S T N : Type)
  | register (browser : B) (now : Nat) (req : Register S)
  | login (browser : B) (now : Nat) (order : Order PortalUser) (req : Login)
  | route (browser : B) (now : Nat) (cookie : Option Str) (clock : Clock T) (plan : Plan N)
      (req : Request N)
  | worker (action : Action)

section Requests

variable {V N T : Type} [DecidableEq N] [LinearOrder T] [JsMath N]

/-- The routes for a cookie, with the tables they leave. -/
def answer (jose : Jose V N) (authSecret cookie : Option Str) (clock : Clock T) (plan : Plan N)
    (db : PortalDb N) (req : Request N) : Response T N × PortalDb N :=
  match getSession jose authSecret cookie with
  | none => respond clock plan db none req
  | some (userId, email) =>
    match jose.integer userId with
    | some userId => respond clock plan db (some ⟨userId, email⟩) req
    | none =>
      -- the query fails, which comes behind the check of the range
      match req with
      | .consumption _ range =>
        match RangeKey.ofText range with
        | none => (.error "bad range".toList 400, db)
        | some _ => (.thrown, db)
      | _ => (.thrown, db)

end Requests

namespace Site

variable {B S V N T : Type}

def tables (site : Site B N) : PortalDb N :=
  ⟨site.world.db, site.users, site.portalMeters, site.nextUserId⟩

/-- The site with other tables. -/
def write (site : Site B N) (db : PortalDb N) : Site B N :=
  { site with
    world := { site.world with db := db.cloud }
    users := db.users
    portalMeters := db.portalMeters
    nextUserId := db.nextUserId }

variable (tokens : Tokens V N) (authSecret : Option Str)

/-- `setSession` after a request that succeeds. -/
def opened (site : Site B N) (browser : B) (now : Nat) : Reply → Site B N
  | .ok session =>
    { site with
      issued := ⟨browser, tokens.sign (secret authSecret) session now, session⟩ :: site.issued }
  | _ => site

variable [DecidableEq N] [LinearOrder T] [JsMath N] [Python N] [Server N] [Node S]

def step (site : Site B N) : Call B S T N → Site B N
  | .register browser now req =>
    (site.write (register site.tables req).2).opened tokens authSecret browser now
      (register site.tables req).1
  | .login browser now order req =>
    site.opened tokens authSecret browser now (login S order.arrange site.tables req)
  | .route _ now cookie clock plan req =>
    site.write (answer (tokens.jose now) authSecret cookie clock plan site.tables req).2
  | .worker action => { site with world := site.world.step action }

end Site

/-! ### What a route writes -/

section Writes

variable {N T : Type} [DecidableEq N] [LinearOrder T] [JsMath N] {db : PortalDb N}

omit [DecidableEq N] [JsMath N] [LinearOrder T] in
theorem guarded_cases (db : PortalDb N) (userId : Nat) (imei : Str)
    (answer : Response T N × PortalDb N) :
    (guarded db userId imei answer).2 = db ∨ guarded db userId imei answer = answer := by
  unfold guarded
  split
  · exact .inl rfl
  · exact .inl rfl
  · exact .inr rfl

omit [DecidableEq N] [JsMath N] [LinearOrder T] in
theorem guarded_same {userId : Nat} {imei : Str} {answer : Response T N × PortalDb N}
    (h : answer.2 = db) : (guarded db userId imei answer).2 = db := by
  rcases guarded_cases db userId imei answer with hsame | hanswer
  · exact hsame
  · rw [hanswer, h]

/-- The address is all that a route writes, in the rows of its session. -/
theorem respond_writes (clock : Clock T) (plan : Plan N) (db : PortalDb N)
    (session : Option Session) (req : Request N) :
    (respond clock plan db session req).2 = db ∨
      ∃ s imei address lat lon geofenceM, session = some s ∧
        (respond clock plan db session req).2 =
          updateAddress db s.userId imei address lat lon geofenceM := by
  cases session with
  | none => exact .inl rfl
  | some s =>
    cases req with
    | meters => exact .inl rfl
    | consumption imei range =>
      apply Or.inl
      show (consumptionRoute clock db s.userId imei range).2 = db
      unfold consumptionRoute
      split
      · rfl
      · apply guarded_same
        split <;> rfl
    | fingerprint imei => exact .inl (guarded_same rfl)
    | address imei address lat lon geofenceM located =>
      rcases addressRoute_cases T imei address lat lon geofenceM located with
        h | ⟨text, lat', lon', h⟩
      · have hroute : (respond clock plan db (some s)
            (.address imei address lat lon geofenceM located)).2 = _ :=
          congrArg Prod.snd (h db s.userId)
        exact .inl (hroute.trans (guarded_same rfl))
      · have hroute : (respond clock plan db (some s)
            (.address imei address lat lon geofenceM located)).2 = _ :=
          congrArg Prod.snd (h db s.userId)
        rcases guarded_cases (T := T) db s.userId imei
          (.address lat' lon' geofenceM,
            updateAddress db s.userId imei text lat' lon' geofenceM) with hsame | hanswer
        · exact .inl (hroute.trans hsame)
        · refine .inr ⟨s, imei, text, lat', lon', geofenceM, rfl, ?_⟩
          rw [hroute, hanswer]
    | heatmap =>
      apply Or.inl
      show (heatmapRoute clock plan db s.userId).2 = db
      unfold heatmapRoute
      cases heatmapPoints clock plan.points db <;> rfl

omit [DecidableEq N] [JsMath N] in
/-- An address that is saved leaves the accounts consistent. -/
theorem Consistent.updateAddress (h : Consistent db) (userId : Nat) (imei : Str)
    (address : Option Str) (lat lon : Option N) (geofenceM : N) :
    Consistent (updateAddress db userId imei address lat lon geofenceM) where
  fresh := h.fresh
  id_unique := h.id_unique
  email_unique := h.email_unique
  owner m hm := by
    obtain ⟨m', hm', rfl⟩ := List.mem_map.1 hm
    obtain ⟨u, hu, hid⟩ := h.owner m' hm'
    refine ⟨u, hu, ?_⟩
    split <;> exact hid

end Writes

/-! ### Tokens -/

section Opened

variable {B S V N T : Type} {tokens : Tokens V N} {authSecret : Option Str} {site : Site B N}
  {browser : B} {now : Nat}

theorem tables_opened (reply : Reply) :
    (site.opened tokens authSecret browser now reply).tables = site.tables := by
  cases reply <;> rfl

theorem mem_opened {reply : Reply} {i : Issue B}
    (h : i ∈ (site.opened tokens authSecret browser now reply).issued) :
    i ∈ site.issued ∨ ∃ session, reply = .ok session ∧
      i = ⟨browser, tokens.sign (secret authSecret) session now, session⟩ := by
  cases reply with
  | ok session =>
    rcases List.mem_cons.1 h with rfl | h
    · exact .inr ⟨session, rfl, rfl⟩
    · exact .inl h
  | error text status => exact .inl h
  | thrown => exact .inl h

/-- A login opens a session of an account that it names, with the password of that account. -/
theorem login_ok [Node S] {order : Order PortalUser} {db : PortalDb N} {req : Login}
    {session : Session} (h : login S order.arrange db req = .ok session) :
    ∃ v ∈ loginRows S db (trim req.identifier), session = ⟨v.id, v.email⟩ ∧
      Node.compare S req.password v.passwordHash = true := by
  simp only [login] at h
  split_ifs at h
  split at h
  · cases h
  · rename_i v rest hrows
    split_ifs at h with hpassword
    cases h
    have hmem : v ∈ order.arrange (loginRows S db (trim req.identifier)) := by
      rw [hrows]
      exact List.mem_cons_self
    exact ⟨v, (order.perm _).mem_iff.1 hmem, rfl, hpassword⟩

end Opened

/-! ### Cookies -/

section Cookies

variable {V N T : Type} [DecidableEq N] [LinearOrder T] [JsMath N] {jose : Jose V N}
  {authSecret cookie : Option Str}

omit [DecidableEq N] in
/-- A session comes from a token that is accepted. -/
theorem getSession_some {userId : N} {email : Str}
    (h : getSession jose authSecret cookie = some (userId, email)) :
    ∃ token claim text, cookie = some token ∧
      jose.jwtVerify token (secret authSecret) = some (claim, text) ∧
      jose.number claim = userId := by
  unfold getSession at h
  cases cookie with
  | none => cases h
  | some token =>
    dsimp only at h
    split_ifs at h
    split at h
    · cases h
    · rename_i claim text hverify
      split_ifs at h
      cases h
      exact ⟨token, claim, text, rfl, hverify, rfl⟩

/-- A route writes nothing, or the address in the rows of the account whose token it was given. -/
theorem answer_writes (jose : Jose V N) (authSecret cookie : Option Str) (clock : Clock T)
    (plan : Plan N) (db : PortalDb N) (req : Request N) :
    (answer jose authSecret cookie clock plan db req).2 = db ∨
      ∃ token claim text userId, cookie = some token ∧
        jose.jwtVerify token (secret authSecret) = some (claim, text) ∧
        jose.integer (jose.number claim) = some userId ∧
        ∃ imei address lat lon geofenceM,
          (answer jose authSecret cookie clock plan db req).2 =
            updateAddress db userId imei address lat lon geofenceM := by
  cases hsession : getSession jose authSecret cookie with
  | none =>
    apply Or.inl
    unfold answer
    rw [hsession]
    rfl
  | some session =>
    obtain ⟨number, email⟩ := session
    obtain ⟨token, claim, text, hcookie, hverify, hnumber⟩ := getSession_some hsession
    cases hinteger : jose.integer number with
    | none =>
      apply Or.inl
      simp only [answer, hsession, hinteger]
      split
      · split <;> rfl
      · rfl
    | some userId =>
      have hanswer : answer jose authSecret cookie clock plan db req =
          respond clock plan db (some ⟨userId, email⟩) req := by
        simp only [answer, hsession, hinteger]
      rw [hanswer]
      rcases respond_writes clock plan db (some ⟨userId, email⟩) req with hsame | hwrites
      · exact .inl hsame
      · obtain ⟨s, imei, address, lat, lon, geofenceM, hs, hwrites⟩ := hwrites
        cases hs
        rw [← hnumber] at hinteger
        exact .inr ⟨token, claim, text, userId, hcookie, hverify, hinteger, imei, address, lat, lon,
          geofenceM, hwrites⟩

end Cookies

/-! ### Strangers to an account -/

section Strangers

variable {B S V N T : Type}

/-- The browser of a request; the worker has none. -/
def Call.browser? : Call B S T N → Option B
  | .register browser _ _ => some browser
  | .login browser _ _ _ => some browser
  | .route browser _ _ _ _ _ => some browser
  | .worker _ => none

section Conditions

variable [Node S] (tokens : Tokens V N) (authSecret : Option Str)

/-- A request names an account and gives its password. -/
def Gives (u : PortalUser) (site : Site B N) : Call B S T N → Prop
  | .register _ _ req =>
    Node.toLowerCase S (trim req.email) = u.email ∧
      Node.compare S req.password u.passwordHash = true
  | .login _ _ _ req =>
    u ∈ loginRows S site.tables (trim req.identifier) ∧
      Node.compare S req.password u.passwordHash = true
  | _ => False

/-- A browser has no tokens but those that responses have set for it. -/
def Unforged (site : Site B N) : Call B S T N → Prop
  | .route browser now (some token) _ _ _ =>
    (tokens.jose now).jwtVerify token (secret authSecret) ≠ none →
      ∃ i ∈ site.issued, i.browser = browser ∧ i.token = token
  | _ => True

/-- Tokens are not forged, and strangers do not give the password. -/
structure Honest (u : PortalUser) (stranger : B → Prop) (site : Site B N) (call : Call B S T N) :
    Prop where
  unforged : Unforged tokens authSecret site call
  silent : ∀ browser, call.browser? = some browser → stranger browser → ¬ Gives u site call

/-- The accounts are consistent, the tokens are signed, and those of strangers to an account are
    tokens of other accounts. -/
structure Fenced (u : PortalUser) (stranger : B → Prop) (site : Site B N) : Prop where
  consistent : Consistent site.tables
  signed : ∀ i ∈ site.issued, ∃ now, i.token = tokens.sign (secret authSecret) i.session now
  foreign : ∀ i ∈ site.issued, stranger i.browser →
    ∃ v ∈ site.users, v.id = i.session.userId ∧ v ≠ u

end Conditions

namespace Fenced

variable {tokens : Tokens V N} {authSecret : Option Str} {u : PortalUser} {stranger : B → Prop}
  {site : Site B N} (h : Fenced tokens authSecret u stranger site)
include h

/-- Tables with the same accounts or more. -/
theorem write {db : PortalDb N} (hconsistent : Consistent db) (husers : site.users ⊆ db.users) :
    Fenced tokens authSecret u stranger (site.write db) where
  consistent := hconsistent
  signed := h.signed
  foreign i hi hstranger := by
    obtain ⟨v, hv, hid⟩ := h.foreign i hi hstranger
    exact ⟨v, husers hv, hid⟩

/-- One more token, not of the account where a stranger gets it. -/
theorem opened {browser : B} {now : Nat} {reply : Reply}
    (hreply : ∀ session, reply = .ok session → stranger browser →
      ∃ v ∈ site.users, v.id = session.userId ∧ v ≠ u) :
    Fenced tokens authSecret u stranger (site.opened tokens authSecret browser now reply) where
  consistent := by
    rw [tables_opened]
    exact h.consistent
  signed i hi := by
    rcases mem_opened hi with hi | ⟨session, -, rfl⟩
    · exact h.signed i hi
    · exact ⟨now, rfl⟩
  foreign i hi hstranger := by
    have husers : (site.opened tokens authSecret browser now reply).users = site.users :=
      congrArg PortalDb.users (tables_opened reply)
    rw [husers]
    rcases mem_opened hi with hi | ⟨session, hok, rfl⟩
    · exact h.foreign i hi hstranger
    · exact hreply session hok hstranger

/-- A stranger does not hold a token of the account. -/
theorem not_own (hu : u ∈ site.users) {i : Issue B} (hi : i ∈ site.issued)
    (hstranger : stranger i.browser) : i.session.userId ≠ u.id := by
  obtain ⟨v, hv, hid, hne⟩ := h.foreign i hi hstranger
  intro heq
  exact hne (h.consistent.id_unique v hv u hu (hid.trans heq))

end Fenced

end Strangers

/-! ### Runs -/

section Runs

variable {B S V N T : Type} [DecidableEq N] [LinearOrder T] [JsMath N] [Python N] [Server N]
  [Node S] {tokens : Tokens V N} {authSecret : Option Str} {u : PortalUser} {stranger : B → Prop}
  {site : Site B N}

omit [Python N] [Server N] [Node S] in
/-- What a route writes for a cookie: nothing, or the address in the rows of an account of which the
    browser holds a token. -/
theorem route_writes [LawfulTokens tokens] (h : Fenced tokens authSecret u stranger site)
    {browser : B} {now : Nat} {cookie : Option Str} {clock : Clock T} {plan : Plan N}
    {req : Request N}
    (hunforged : Unforged tokens authSecret site
      (.route browser now cookie clock plan req : Call B S T N)) :
    (answer (tokens.jose now) authSecret cookie clock plan site.tables req).2 = site.tables ∨
      ∃ i ∈ site.issued, i.browser = browser ∧ ∃ imei address lat lon geofenceM,
        (answer (tokens.jose now) authSecret cookie clock plan site.tables req).2 =
          updateAddress site.tables i.session.userId imei address lat lon geofenceM := by
  rcases answer_writes (tokens.jose now) authSecret cookie clock plan site.tables req with
    hsame | hwrites
  · exact .inl hsame
  · obtain ⟨token, claim, text, userId, rfl, hverify, hinteger, hwrites⟩ := hwrites
    obtain ⟨i, hi, hbrowser, htoken⟩ := hunforged (by rw [hverify]; exact Option.some_ne_none _)
    obtain ⟨issuedAt, hsigned⟩ := h.signed i hi
    rw [← htoken, hsigned] at hverify
    -- the claims are those of the session that was signed
    have hclaims := LawfulTokens.claims hverify
    rw [hclaims, Option.some.injEq] at hinteger
    rw [← hinteger] at hwrites
    exact .inr ⟨i, hi, hbrowser, hwrites⟩

variable [LawfulNode S] [LawfulTokens tokens]

theorem Fenced.step (h : Fenced tokens authSecret u stranger site) {call : Call B S T N}
    (hhonest : Honest tokens authSecret u stranger site call) :
    Fenced tokens authSecret u stranger (site.step tokens authSecret call) := by
  cases call with
  | register browser now req =>
    have hkeeps := register_keeps h.consistent req
    apply (h.write hkeeps.1 hkeeps.2.users).opened
    intro session hok hstranger
    have haccount := register_ok hok
    refine ⟨_, haccount.user, rfl, ?_⟩
    -- otherwise the request has given the password of the account
    rintro rfl
    apply hhonest.silent browser rfl hstranger
    refine ⟨haccount.email_eq.symm, ?_⟩
    rw [LawfulNode.compare_hash]
    exact decide_eq_true rfl
  | login browser now order req =>
    apply h.opened
    intro session hok hstranger
    obtain ⟨v, hv, rfl, hpassword⟩ := login_ok hok
    refine ⟨v, loginRows_subset _ _ hv, rfl, ?_⟩
    rintro rfl
    exact hhonest.silent browser rfl hstranger ⟨hv, hpassword⟩
  | route browser now cookie clock plan req =>
    have hwrites := route_writes h hhonest.unforged
    rcases hwrites with hsame | ⟨i, -, -, imei, address, lat, lon, geofenceM, hwrites⟩
    · apply h.write
      · rw [hsame]
        exact h.consistent
      · rw [hsame]
        exact List.Subset.refl _
    · apply h.write
      · rw [hwrites]
        exact h.consistent.updateAddress _ _ _ _ _ _
      · rw [hwrites]
        exact List.Subset.refl _
  | worker action =>
    exact ⟨⟨h.consistent.fresh, h.consistent.id_unique, h.consistent.email_unique,
      h.consistent.owner⟩, h.signed, h.foreign⟩

omit [LawfulNode S] in
/-- A request of a stranger, or an action of the worker, changes nothing of an account. -/
theorem step_leaves (h : Fenced tokens authSecret u stranger site) {call : Call B S T N}
    (hunforged : Unforged tokens authSecret site call)
    (hcall : ∀ browser, call.browser? = some browser → stranger browser) (hu : u ∈ site.users) :
    u ∈ (site.step tokens authSecret call).users ∧
      metersOf (site.step tokens authSecret call).tables u.id = metersOf site.tables u.id := by
  cases call with
  | register browser now req =>
    have heffect := register_effect site.tables req
    have husers : ∀ reply : Reply,
        ((site.write (register site.tables req).2).opened tokens authSecret browser now
          reply).tables = (register site.tables req).2 := fun reply => tables_opened reply
    show u ∈ (Site.tables (Site.opened _ _ _ _ _ _)).users ∧ _
    rw [Site.step, husers]
    generalize register site.tables req = result at heffect
    cases heffect with
    | refused reply cloud next _ _ => exact ⟨hu, rfl⟩
    | incomplete reply cloud _ _ => exact ⟨List.mem_append_left _ hu, rfl⟩
    | complete cloud row _ hrow =>
      refine ⟨List.mem_append_left _ hu, ?_⟩
      -- the new row belongs to the new account
      have hnew : row.userId ≠ u.id := by
        rw [hrow.1]
        exact (h.consistent.fresh u hu).ne'
      show (site.portalMeters ++ [row]).filter _ = site.portalMeters.filter _
      rw [List.filter_append, List.filter_cons_of_neg (by simp [hnew]), List.filter_nil,
        List.append_nil]
  | login browser now order req =>
    have htables : (site.step tokens authSecret
        (.login browser now order req : Call B S T N)).tables = site.tables := tables_opened _
    have husers : (site.step tokens authSecret
        (.login browser now order req : Call B S T N)).users = site.users :=
      congrArg PortalDb.users htables
    rw [husers, htables]
    exact ⟨hu, rfl⟩
  | route browser now cookie clock plan req =>
    show u ∈ (answer _ _ _ _ _ _ _).2.users ∧ metersOf (answer _ _ _ _ _ _ _).2 u.id = _
    rcases route_writes h hunforged with hsame | ⟨i, hi, hbrowser, _, _, _, _, _, hwrites⟩
    · rw [hsame]
      exact ⟨hu, rfl⟩
    · have hown := h.not_own hu hi (hbrowser ▸ hcall browser rfl)
      rw [hwrites]
      exact ⟨hu, (updateAddress_frame _ _ _ _ _ _).others u.id hown.symm⟩
  | worker action => exact ⟨hu, rfl⟩

/-- The site before anyone has registered. -/
def Site.start (world : World N) : Site B N := ⟨world, [], [], 1, []⟩

omit [DecidableEq N] [LinearOrder T] [JsMath N] [Python N] [Server N] [Node S] [LawfulNode S]
  [LawfulTokens tokens] in
theorem fenced_start (world : World N) :
    Fenced tokens authSecret u stranger (Site.start world : Site B N) where
  consistent := consistent_noAccounts world.db
  signed _ hi := nomatch hi
  foreign _ hi := nomatch hi

/-- Whatever else happens at the site, and in whichever order: a browser that never gives the
    password of an account under its name gets no token of it, and changes neither its row nor
    the rows of its meters; nor does the worker. -/
theorem strangers_leave (world : World N) {before after : List (Call B S T N)} {call : Call B S T N}
    (h : Meets (Site.step tokens authSecret) (Honest tokens authSecret u stranger)
      (Site.start world) (before ++ call :: after))
    (hcall : ∀ browser, call.browser? = some browser → stranger browser) :
    let site := before.foldl (Site.step tokens authSecret) (Site.start world)
    let site' := site.step tokens authSecret call
    u ∈ site.users →
      u ∈ site'.users ∧ metersOf site'.tables u.id = metersOf site.tables u.id ∧
        ∀ i ∈ site'.issued, stranger i.browser → i.session.userId ≠ u.id := by
  intro site site' hu
  obtain ⟨hbefore, hhonest, -⟩ := meets_append.1 h
  have hfenced : Fenced tokens authSecret u stranger site :=
    invariant (fun _ _ hsite hok => hsite.step hok) (fenced_start world) hbefore site
      (last_mem _ _)
  obtain ⟨hstays, hmeters⟩ := step_leaves hfenced hhonest.unforged hcall hu
  exact ⟨hstays, hmeters, fun i hi hstranger => (hfenced.step hhonest).not_own hstays hi hstranger⟩

end Runs

/-! ### Two browsers -/

/-- The session of the second household, as `setSession` signs it with the default secret. -/
def benToken : Str :=
  ("eyJhbGciOiJIUzI1NiJ9.eyJ1c2VySWQiOjIsImVtYWlsIjoiYmVuQGhvbWUuZ3QiLCJpYXQiOjE3Njg1MDAwNjAs" ++
    "ImV4cCI6MTc2OTEwNDg2MH0.0YLP2RAAETrdtA2U-8xZI23HzA0kJ-iw3-hDa6b2k5E").toList

def benSession : Session := ⟨2, "ben@home.gt".toList⟩

/-- The tokens of the two households, as they are signed at one moment each. -/
def homeTokens : Tokens (Json Exact) Exact where
  sign secret session now :=
    if secret = "dev-only-change-me".toList ∧ session = ana ∧ now = 1768500000 then anaToken
    else if secret = "dev-only-change-me".toList ∧ session = benSession ∧ now = 1768500060 then
      benToken
    else []
  jose _ :=
    { anaJose with
      jwtVerify := fun token secret =>
        if token = benToken ∧ secret = "dev-only-change-me".toList then
          some (.int 2, .str "ben@home.gt".toList)
        else anaJose.jwtVerify token secret }

theorem tokens_differ : anaToken ≠ benToken ∧ anaToken ≠ [] ∧ benToken ≠ [] := by decide +kernel

instance : LawfulTokens homeTokens where
  claims {secret session issuedAt now userId email} h := by
    obtain ⟨hdiffer, hana, hben⟩ := tokens_differ
    simp only [homeTokens, anaJose] at h ⊢
    split_ifs at h with hfirst hb ha hsecond hb ha hb ha
    · exact absurd hb.1 hdiffer
    · cases h
      rw [hfirst.2.1]
      rfl
    · cases h
      rw [hsecond.2.1]
      rfl
    · exact absurd ha.1.symm hdiffer
    · exact absurd hb.1.symm hben
    · exact absurd ha.1.symm hana

/-- The account of the first household. -/
def anaUser : PortalUser := ⟨1, ana.email, Node.hash () first.password⟩

/-- Both register the same meter, and the second tries the name of the first with its own
    password. -/
def neighbours : List (Call Bool Unit Int Exact) :=
  [.register true 1768500000 first, .register false 1768500060 (second "861234567890123"),
    .login false 1768500070 .id ⟨ana.email, "battery staple".toList⟩]

/-- Then it asks to change the address of the meter. -/
def move : Call Bool Unit Int Exact :=
  .route false 1768500080 (some benToken) clock ⟨.id, .id, .id⟩
    (.address "861234567890123".toList "9a Avenida 7".toList (some (.finite (73 / 5)))
      (some (.finite (-181 / 2))) (.finite 500) none)

/-- The rows of the first household stay as they are. -/
theorem strangers_leave_ana :
    let site := neighbours.foldl (Site.step homeTokens none) (Site.start (World.init noMeters))
    let site' := site.step homeTokens none move
    anaUser ∈ site'.users ∧ metersOf site'.tables anaUser.id = metersOf site.tables anaUser.id ∧
      ∀ i ∈ site'.issued, i.browser = false → i.session.userId ≠ anaUser.id := by
  have hregister : ∀ site : Site Bool Exact, Honest homeTokens none anaUser (· = false) site
      (.register true 1768500000 first : Call Bool Unit Int Exact) := fun site =>
    ⟨trivial, fun browser hbrowser hstranger => by cases hbrowser; cases hstranger⟩
  have hregister' : ∀ site : Site Bool Exact, Honest homeTokens none anaUser (· = false) site
      (.register false 1768500060 (second "861234567890123") : Call Bool Unit Int Exact) :=
    fun site => ⟨trivial, fun _ _ _ hgives => absurd hgives.1 (by decide +kernel)⟩
  have hlogin : ∀ site : Site Bool Exact, Honest homeTokens none anaUser (· = false) site
      (.login false 1768500070 .id ⟨ana.email, "battery staple".toList⟩ :
        Call Bool Unit Int Exact) :=
    fun site => ⟨trivial, fun _ _ _ hgives => absurd hgives.2 (by decide +kernel)⟩
  have hissued : ∃ i ∈ (neighbours.foldl (Site.step homeTokens none)
      (Site.start (World.init noMeters))).issued, i.browser = false ∧ i.token = benToken := by
    decide +kernel
  have hhonest : Meets (Site.step homeTokens none) (Honest homeTokens none anaUser (· = false))
      (Site.start (World.init noMeters)) (neighbours ++ move :: []) :=
    ⟨hregister _, hregister' _, hlogin _, ⟨fun _ => hissued, fun _ _ _ hgives => hgives⟩, trivial⟩
  exact strangers_leave (World.init noMeters) hhonest (fun _ hbrowser => by cases hbrowser; rfl)
    (by decide +kernel)

end Portal

end Waterbox
