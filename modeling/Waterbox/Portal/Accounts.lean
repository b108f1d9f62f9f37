import Mathlib
import Waterbox.Cloud.Exact
import Waterbox.Portal.Curve

namespace Waterbox

namespace Portal

/-!
# The accounts of the portal

`register` writes a row of `portal_users` and a row of `portal_meters`, one statement after the
other; `login` looks an account up under its email or under the IMEI of its meter.

* `register`, `login` — the two routes.
* `Consistent` — ids and emails are unique, and every meter has an owner.
* `register_keeps` — what every registration keeps, `register_ok` — what one that succeeds adds.
* `logsIn_email_iff`, `logsIn_imei_iff` — where the two identifiers of an account lead to.
* `logins_agree_iff` — when both lead to the account, after any registrations.
-/

open Cloud

/-! ### Texts -/

/-- White space in the sense of `trim()` and of `\s`. -/
def isWhite (c : Char) : Bool :=
  let n := c.toNat
  (9 ≤ n && n ≤ 13) || n = 0x20 || n = 0xA0 || n = 0x1680 || (0x2000 ≤ n && n ≤ 0x200A) ||
    n = 0x2028 || n = 0x2029 || n = 0x202F || n = 0x205F || n = 0x3000 || n = 0xFEFF

/-- `text.trim()`. -/
def trim (text : Str) : Str := ((text.dropWhile isWhite).reverse.dropWhile isWhite).reverse

/-- `text.length`, in the units of UTF-16. -/
def utf16Length (text : Str) : Nat := (text.map fun c => if c.toNat < 0x10000 then 1 else 2).sum

/-- `text.includes(part)`. -/
def includes (text part : Str) : Bool := (Text.strstr part text).isSome

def normalizeImei (raw : Str) : Str := trim (raw.filter fun c => !isWhite c)

def looksLikeEmail (value : Str) : Bool := value.contains '@'

/-- What the routes get from Node: `toLowerCase()`, and bcrypt with salts of type `S`. -/
class Node (S : Type) where
  toLowerCase : Str → Str
  hash : S → Str → Str
  compare : Str → Str → Bool

/-- The comparison accepts the password that was hashed and no other. -/
class LawfulNode (S : Type) [Node S] : Prop where
  at_toLowerCase : ∀ text : Str, '@' ∈ Node.toLowerCase S text ↔ '@' ∈ text
  compare_hash : ∀ (salt : S) (p q : Str), Node.compare S p (Node.hash salt q) = decide (p = q)

/-! ### Tables -/

/-- A row of `portal_users`. -/
structure PortalUser where
  id : Nat
  email : Str
  passwordHash : Str
deriving DecidableEq

/-- A row of `portal_meters`. -/
structure PortalMeter (N : Type) where
  userId : Nat
  imei : Str
  label : Option Str
  address : Option Str
  lat : Option N
  lon : Option N
  geofenceM : N
deriving DecidableEq

/-- The tables of `init.sql`, and the sequence of `portal_users`. -/
structure PortalDb (N : Type) where
  cloud : Db N
  users : List PortalUser
  portalMeters : List (PortalMeter N)
  nextUserId : Nat

/-- The statements of `register`. -/
inductive Statement
  | createPortalUsers | createPortalMeters | insertMeter | insertPortalUser | insertPortalMeter
deriving DecidableEq

/-- A statement that the database refuses for a reason outside of the tables, with its message. -/
def refused : Option Str → Except Str Unit
  | some message => .error message
  | none => .ok ()

/-- A parameter of type `TEXT`. -/
def textParameter (text : Str) : Except Str Unit :=
  match textColumn text with
  | none => .error "invalid byte sequence for encoding \"UTF8\": 0x00".toList
  | some _ => .ok ()

def duplicateKey (constraint : Str) : Str :=
  "duplicate key value violates unique constraint \"".toList ++ constraint ++ "\"".toList

def missingKey (constraint : Str) : Str :=
  "insert or update on table \"portal_meters\" violates foreign key constraint \"".toList ++
    constraint ++ "\"".toList

section Statements

variable {N : Type} (fault : Statement → Option Str)

/-- `ensurePortalSchema()`: the tables are there. -/
def ensurePortalSchema : Except Str Unit := do
  refused (fault .createPortalUsers)
  refused (fault .createPortalMeters)

/-- `ensureMeter(imei)`, with the defaults of the table. -/
def ensureMeter (now : Nat) (imei : Str) (db : PortalDb N) : Except Str (PortalDb N) := do
  refused (fault .insertMeter)
  textParameter imei
  if (db.cloud.meters.lookup imei).isSome then pure db
  else
    let row : Meter :=
      { firstSeen := now, lastSeen := now, pulsesPerLiter := none, valve := none, fpValid := false }
    pure { db with cloud := { db.cloud with meters := db.cloud.meters.insert imei row } }

/-- `INSERT INTO portal_users ... RETURNING id, email`.  The sequence does not go back where the row
    is refused. -/
def insertPortalUser (email hash : Str) (db : PortalDb N) : Except Str Nat × PortalDb N :=
  match (do refused (fault .insertPortalUser); textParameter email; textParameter hash) with
  | .error message => (.error message, db)
  | .ok () =>
    if 2 ^ 31 ≤ db.nextUserId then
      (.error "nextval: reached maximum value of sequence \"portal_users_id_seq\"".toList, db)
    else if db.users.any (·.email = email) then
      (.error (duplicateKey "portal_users_email_key".toList),
        { db with nextUserId := db.nextUserId + 1 })
    else
      (.ok db.nextUserId,
        { db with
          users := db.users ++ [⟨db.nextUserId, email, hash⟩]
          nextUserId := db.nextUserId + 1 })

/-- `INSERT INTO portal_meters (user_id, imei, label, address) VALUES ...`. -/
def insertPortalMeter [JsNumber N] (userId : Nat) (imei label : Str) (address : Option Str)
    (db : PortalDb N) : Except Str (PortalDb N) := do
  refused (fault .insertPortalMeter)
  textParameter imei
  textParameter label
  textParameter (address.getD [])
  if db.portalMeters.any fun m => m.userId = userId && m.imei = imei then
    throw (duplicateKey "portal_meters_pkey".toList)
  else if db.users.all (·.id ≠ userId) then
    throw (missingKey "portal_meters_user_id_fkey".toList)
  else if (db.cloud.meters.lookup imei).isNone then
    throw (missingKey "portal_meters_imei_fkey".toList)
  else
    let row : PortalMeter N :=
      { userId := userId
        imei := imei
        label := some label
        address := address
        lat := none
        lon := none
        geofenceM := JsNumber.ofRat 500 }
    pure { db with portalMeters := db.portalMeters ++ [row] }

end Statements

/-! ### The routes -/

structure Session where
  userId : Nat
  email : Str
deriving DecidableEq

/-- A response: `{ ok: true }` with the session that is set, `{ error }` with its status, or that of
    an exception. -/
inductive Reply
  | ok (session : Session)
  | error (text : Str) (status : Nat)
  | thrown
deriving DecidableEq

/-- A request to register: the texts `String(body.x || "")`, the time and the salt, and what becomes
    of the statements. -/
structure Register (S : Type) where
  email : Str
  password : Str
  imei : Str
  address : Str
  now : Nat
  salt : S
  fault : Statement → Option Str

/-- The `catch` of the route. -/
def registerFailed (message : Str) : Reply :=
  if includes message "portal_users_email_key".toList || includes message "unique".toList then
    .error "Email already registered".toList 409
  else .error message 400

section Routes

variable {S N : Type} [Node S]

/-- `POST` of `register`, with the tables it leaves. -/
def register [JsNumber N] (db : PortalDb N) (req : Register S) : Reply × PortalDb N :=
  let email := Node.toLowerCase S (trim req.email)
  let imei := normalizeImei req.imei
  let address := trim req.address
  if !email.contains '@' || utf16Length req.password < 8 || utf16Length imei < 8 then
    (.error "Need email, 8+ char password, and IMEI".toList 400, db)
  else
    match ensurePortalSchema req.fault with
    | .error _ => (.thrown, db)
    | .ok () =>
      match ensureMeter req.fault req.now imei db with
      | .error _ => (.thrown, db)
      | .ok db =>
        let hash := Node.hash req.salt req.password
        match insertPortalUser req.fault email hash db with
        | (.error message, db) => (registerFailed message, db)
        | (.ok userId, db) =>
          let address := if address.isEmpty then none else some address
          match insertPortalMeter req.fault userId imei imei address db with
          | .error message => (registerFailed message, db)
          | .ok db => (.ok ⟨userId, email⟩, db)

structure Login where
  identifier : Str
  password : Str

variable (S)

/-- The parameter of the query of `login`. -/
def loginParameter (identifier : Str) : Str :=
  if looksLikeEmail identifier then Node.toLowerCase S identifier else normalizeImei identifier

/-- The rows that the query of `login` selects. -/
def loginRows (db : PortalDb N) (identifier : Str) : List PortalUser :=
  if looksLikeEmail identifier then
    db.users.filter fun u => u.email = loginParameter S identifier
  else
    db.users.flatMap fun u =>
      (db.portalMeters.filter fun m =>
        m.userId = u.id && m.imei = loginParameter S identifier).map fun _ => u

/-- `POST` of `login`; without `ORDER BY` the rows may come in any `order`. -/
def login (order : List PortalUser → List PortalUser) (db : PortalDb N) (req : Login) : Reply :=
  let identifier := trim req.identifier
  if identifier.isEmpty || req.password.isEmpty then .error "Missing credentials".toList 400
  else if textColumn (loginParameter S identifier) = none then .thrown
  else
    match order (loginRows S db identifier) with
    | [] => .error "Unknown user or IMEI".toList 401
    | user :: _ =>
      if Node.compare S req.password user.passwordHash then .ok ⟨user.id, user.email⟩
      else .error "Bad password".toList 401

end Routes

/-! ### Texts that are cut and compared -/

theorem filter_dropWhile_white (text : Str) :
    ((text.dropWhile isWhite).filter fun c => !isWhite c) = text.filter fun c => !isWhite c := by
  induction text with
  | nil => rfl
  | cons c text ih =>
    by_cases hc : isWhite c
    · rw [List.dropWhile_cons_of_pos hc, ih, List.filter_cons_of_neg (by simp [hc])]
    · rw [List.dropWhile_cons_of_neg hc]

/-- `trim()` removes nothing but white space. -/
theorem filter_trim (text : Str) :
    ((trim text).filter fun c => !isWhite c) = text.filter fun c => !isWhite c := by
  rw [trim, List.filter_reverse, filter_dropWhile_white, List.filter_reverse, List.reverse_reverse,
    filter_dropWhile_white]

theorem normalizeImei_trim (raw : Str) : normalizeImei (trim raw) = normalizeImei raw := by
  rw [normalizeImei, filter_trim, normalizeImei]

theorem at_trim (text : Str) : '@' ∈ trim text ↔ '@' ∈ text := by
  have hat (t : Str) : ('@' ∈ t.filter fun c => !isWhite c) ↔ '@' ∈ t := by
    rw [List.mem_filter, and_iff_left (by decide)]
  rw [← hat, filter_trim, hat]

theorem looksLikeEmail_iff (value : Str) : looksLikeEmail value = true ↔ '@' ∈ value :=
  List.contains_iff_mem

/-- A text of eight characters is not empty. -/
theorem ne_nil_of_length {text : Str} (h : ¬ utf16Length text < 8) : text ≠ [] := by
  rintro rfl
  exact h (by decide)

/-! ### What a registration does -/

section Effects

variable {S N : Type} [Node S] [JsNumber N] {db db' : PortalDb N} {req : Register S}

theorem bind_ok {α β : Type} {x : Except Str α} {f : α → Except Str β} {b : β} :
    (x >>= f) = .ok b ↔ ∃ a, x = .ok a ∧ f a = .ok b := by
  cases x with
  | error message => exact ⟨nofun, nofun⟩
  | ok a => exact ⟨fun h => ⟨a, rfl, h⟩, fun ⟨_, ha, h⟩ => by cases ha; exact h⟩

theorem textParameter_ok {text : Str} {u : Unit} (h : textParameter text = .ok u) :
    textColumn text ≠ none := by
  unfold textParameter at h
  cases htext : textColumn text with
  | none =>
    rw [htext] at h
    cases h
  | some _ => exact Option.some_ne_none _

/-- The row of `portal_users` for a request. -/
def accountOf (db : PortalDb N) (req : Register S) : PortalUser where
  id := db.nextUserId
  email := Node.toLowerCase S (trim req.email)
  passwordHash := Node.hash req.salt req.password

/-- What a request has where it comes as far as the row of `portal_users`. -/
structure Accepted (db : PortalDb N) (req : Register S) : Prop where
  email : '@' ∈ Node.toLowerCase S (trim req.email)
  password : req.password ≠ []
  imei : normalizeImei req.imei ≠ []
  emailText : textColumn (Node.toLowerCase S (trim req.email)) ≠ none
  imeiText : textColumn (normalizeImei req.imei) ≠ none
  fresh : ∀ u ∈ db.users, u.email ≠ Node.toLowerCase S (trim req.email)

/-- No account, an account without a meter, or an account. -/
inductive Effect (db : PortalDb N) (req : Register S) : Reply × PortalDb N → Prop
  | refused (reply : Reply) (cloud : Db N) (next : Nat) (hreply : ∀ session, reply ≠ .ok session)
      (hnext : db.nextUserId ≤ next) :
      Effect db req (reply, { db with cloud := cloud, nextUserId := next })
  | incomplete (reply : Reply) (cloud : Db N) (hreply : ∀ session, reply ≠ .ok session)
      (h : Accepted db req) :
      Effect db req (reply,
        { db with
          cloud := cloud
          users := db.users ++ [accountOf db req]
          nextUserId := db.nextUserId + 1 })
  | complete (cloud : Db N) (row : PortalMeter N) (h : Accepted db req)
      (hrow : row.userId = db.nextUserId ∧ row.imei = normalizeImei req.imei) :
      Effect db req (.ok ⟨db.nextUserId, Node.toLowerCase S (trim req.email)⟩,
        { db with
          cloud := cloud
          users := db.users ++ [accountOf db req]
          portalMeters := db.portalMeters ++ [row]
          nextUserId := db.nextUserId + 1 })

omit [JsNumber N] in
theorem ensureMeter_ok {fault : Statement → Option Str} {now : Nat} {imei : Str}
    (h : ensureMeter fault now imei db = .ok db') :
    textColumn imei ≠ none ∧ ∃ cloud, db' = { db with cloud := cloud } := by
  simp only [ensureMeter, bind_ok] at h
  obtain ⟨_, _, _, htext, h⟩ := h
  refine ⟨textParameter_ok htext, ?_⟩
  split at h
  · cases h
    exact ⟨_, rfl⟩
  · cases h
    exact ⟨_, rfl⟩

omit [JsNumber N] in
/-- The row is added with the next id, or nothing but the sequence changes. -/
theorem insertPortalUser_cases (fault : Statement → Option Str) (email hash : Str)
    (db : PortalDb N) :
    (∃ message next, db.nextUserId ≤ next ∧
      insertPortalUser fault email hash db = (.error message, { db with nextUserId := next })) ∨
    (textColumn email ≠ none ∧ (∀ u ∈ db.users, u.email ≠ email) ∧
      insertPortalUser fault email hash db = (.ok db.nextUserId,
        { db with
          users := db.users ++ [⟨db.nextUserId, email, hash⟩]
          nextUserId := db.nextUserId + 1 })) := by
  unfold insertPortalUser
  split
  · exact .inl ⟨_, db.nextUserId, le_refl _, rfl⟩
  · rename_i hparameters
    simp only [bind_ok] at hparameters
    obtain ⟨_, _, _, hemail, _⟩ := hparameters
    by_cases hlimit : 2 ^ 31 ≤ db.nextUserId
    · rw [if_pos hlimit]
      exact .inl ⟨_, db.nextUserId, le_refl _, rfl⟩
    · rw [if_neg hlimit]
      by_cases htaken : (db.users.any (·.email = email)) = true
      · -- the sequence has moved on
        rw [if_pos htaken]
        exact .inl ⟨_, db.nextUserId + 1, Nat.le_succ _, rfl⟩
      · rw [if_neg htaken]
        refine .inr ⟨textParameter_ok hemail, ?_, rfl⟩
        intro u hu heq
        exact htaken (List.any_eq_true.2 ⟨u, hu, decide_eq_true heq⟩)

theorem insertPortalMeter_ok {fault : Statement → Option Str} {userId : Nat} {imei label : Str}
    {address : Option Str} (h : insertPortalMeter fault userId imei label address db = .ok db') :
    ∃ row : PortalMeter N, (row.userId = userId ∧ row.imei = imei) ∧
      db' = { db with portalMeters := db.portalMeters ++ [row] } := by
  simp only [insertPortalMeter, bind_ok] at h
  obtain ⟨_, _, _, _, _, _, _, _, h⟩ := h
  split_ifs at h
  cases h
  exact ⟨_, ⟨rfl, rfl⟩, rfl⟩

theorem registerFailed_ne_ok (message : Str) (session : Session) :
    registerFailed message ≠ .ok session := by
  unfold registerFailed
  split <;> exact nofun

theorem register_effect (db : PortalDb N) (req : Register S) : Effect db req (register db req) := by
  unfold register
  extract_lets email imei address
  split_ifs with hguards
  · -- the texts are refused
    exact .refused _ db.cloud db.nextUserId (nofun) (le_refl _)
  · simp only [Bool.or_eq_true, Bool.not_eq_true', decide_eq_true_eq, not_or,
      Bool.not_eq_false, List.contains_iff_mem] at hguards
    obtain ⟨⟨hat, hpassword⟩, himei⟩ := hguards
    split
    · exact .refused _ db.cloud db.nextUserId (nofun) (le_refl _)
    · cases hmeter : ensureMeter req.fault req.now imei db with
      | error message => exact .refused _ db.cloud db.nextUserId (nofun) (le_refl _)
      | ok db₁ =>
        obtain ⟨himeiText, cloud, rfl⟩ := ensureMeter_ok hmeter
        dsimp only
        rcases insertPortalUser_cases req.fault email (Node.hash req.salt req.password)
          { db with cloud := cloud } with
            ⟨message, next, hnext, huser⟩ | ⟨hemailText, hfresh, huser⟩
        · -- the row of the meter stays, and the id may be used up
          rw [huser]
          exact .refused _ cloud next (registerFailed_ne_ok message) hnext
        · rw [huser]
          have haccepted : Accepted db req :=
            ⟨hat, ne_nil_of_length hpassword, ne_nil_of_length himei, hemailText, himeiText, hfresh⟩
          dsimp only
          split
          · -- the account stays without a meter
            rename_i message _
            exact .incomplete _ cloud (registerFailed_ne_ok message) haccepted
          · rename_i hinsert
            obtain ⟨row, hrow, rfl⟩ := insertPortalMeter_ok hinsert
            exact .complete cloud row haccepted hrow

/-! ### Runs of registrations -/

/-- Ids and emails are unique, and every meter has an owner. -/
structure Consistent (db : PortalDb N) : Prop where
  fresh : ∀ u ∈ db.users, u.id < db.nextUserId
  id_unique : ∀ u ∈ db.users, ∀ v ∈ db.users, u.id = v.id → u = v
  email_unique : ∀ u ∈ db.users, ∀ v ∈ db.users, u.email = v.email → u = v
  owner : ∀ m ∈ db.portalMeters, ∃ u ∈ db.users, u.id = m.userId

omit [JsNumber N] in
/-- Another account with the next id and a new email. -/
theorem Consistent.add (h : Consistent db) {u : PortalUser} (hid : u.id = db.nextUserId)
    (hemail : ∀ v ∈ db.users, v.email ≠ u.email) (cloud : Db N) :
    Consistent
      { db with cloud := cloud, users := db.users ++ [u], nextUserId := db.nextUserId + 1 } where
  fresh v hv := by
    show v.id < db.nextUserId + 1
    rcases List.mem_append.1 hv with hv | hv
    · have := h.fresh v hv
      omega
    · rw [List.mem_singleton.1 hv]
      omega
  -- the new id is larger than the others
  id_unique v hv w hw heq := by
    rcases List.mem_append.1 hv with hv | hv <;> rcases List.mem_append.1 hw with hw | hw
    · exact h.id_unique v hv w hw heq
    · have := h.fresh v hv
      rw [List.mem_singleton.1 hw] at heq
      omega
    · have := h.fresh w hw
      rw [List.mem_singleton.1 hv] at heq
      omega
    · rw [List.mem_singleton.1 hv, List.mem_singleton.1 hw]
  email_unique v hv w hw heq := by
    rcases List.mem_append.1 hv with hv | hv <;> rcases List.mem_append.1 hw with hw | hw
    · exact h.email_unique v hv w hw heq
    · rw [List.mem_singleton.1 hw] at heq
      exact absurd heq (hemail v hv)
    · rw [List.mem_singleton.1 hv] at heq
      exact absurd heq.symm (hemail w hw)
    · rw [List.mem_singleton.1 hv, List.mem_singleton.1 hw]
  owner m hm := by
    obtain ⟨v, hv, heq⟩ := h.owner m hm
    exact ⟨v, List.mem_append_left _ hv, heq⟩

/-- The accounts of one state that are still there in another. -/
structure Kept (db db' : PortalDb N) : Prop where
  users : db.users ⊆ db'.users
  portalMeters : db.portalMeters ⊆ db'.portalMeters

/-- A registration, whatever becomes of it, keeps the accounts and their consistency. -/
theorem register_keeps (h : Consistent db) (req : Register S) :
    Consistent (register db req).2 ∧ Kept db (register db req).2 := by
  have heffect := register_effect db req
  generalize register db req = result at heffect
  cases heffect with
  | refused reply cloud next _ hnext =>
    refine ⟨⟨?_, h.id_unique, h.email_unique, h.owner⟩, List.Subset.refl _, List.Subset.refl _⟩
    intro u hu
    exact lt_of_lt_of_le (h.fresh u hu) hnext
  | incomplete reply cloud _ haccepted =>
    exact ⟨h.add rfl haccepted.fresh cloud, List.subset_append_left _ _, List.Subset.refl _⟩
  | complete cloud row haccepted hrow =>
    have hadd := h.add (u := accountOf db req) rfl haccepted.fresh cloud
    refine ⟨⟨hadd.fresh, hadd.id_unique, hadd.email_unique, ?_⟩, List.subset_append_left _ _,
      List.subset_append_left _ _⟩
    intro m hm
    rcases List.mem_append.1 hm with hm | hm
    · exact hadd.owner m hm
    · rw [List.mem_singleton.1 hm]
      exact ⟨accountOf db req, List.mem_append_right _ (List.mem_singleton_self _), hrow.1.symm⟩

/-- What is there after a registration that succeeds. -/
structure Account (db : PortalDb N) (req : Register S) (session : Session) : Prop where
  password : req.password ≠ []
  imei : normalizeImei req.imei ≠ []
  email : '@' ∈ session.email
  email_eq : session.email = Node.toLowerCase S (trim req.email)
  emailText : textColumn session.email ≠ none
  imeiText : textColumn (normalizeImei req.imei) ≠ none
  user : ⟨session.userId, session.email, Node.hash req.salt req.password⟩ ∈ db.users
  meter : ∃ m ∈ db.portalMeters, m.userId = session.userId ∧ m.imei = normalizeImei req.imei

theorem register_ok {session : Session} (h : (register db req).1 = .ok session) :
    Account (register db req).2 req session := by
  have heffect := register_effect db req
  generalize register db req = result at heffect h
  cases heffect with
  | refused reply _ _ hreply _ => exact absurd h (hreply session)
  | incomplete reply _ hreply _ => exact absurd h (hreply session)
  | complete cloud row haccepted hrow =>
    cases h
    exact {
      password := haccepted.password
      imei := haccepted.imei
      email := haccepted.email
      email_eq := rfl
      emailText := haccepted.emailText
      imeiText := haccepted.imeiText
      user := List.mem_append_right _ (List.mem_singleton_self _)
      meter := ⟨row, List.mem_append_right _ (List.mem_singleton_self _), hrow⟩ }

/-- The tables after a list of requests. -/
def registered (db : PortalDb N) (reqs : List (Register S)) : PortalDb N :=
  reqs.foldl (fun db req => (register db req).2) db

theorem registered_keeps (h : Consistent db) (reqs : List (Register S)) :
    Consistent (registered db reqs) ∧ Kept db (registered db reqs) := by
  induction reqs generalizing db with
  | nil => exact ⟨h, List.Subset.refl _, List.Subset.refl _⟩
  | cons req reqs ih =>
    have hstep := register_keeps h req
    have hrest := ih hstep.1
    exact ⟨hrest.1, List.Subset.trans hstep.2.users hrest.2.users,
      List.Subset.trans hstep.2.portalMeters hrest.2.portalMeters⟩

omit [JsNumber N] in
/-- An account stays. -/
theorem Account.kept {session : Session} (h : Account db req session) (hkept : Kept db db') :
    Account db' req session where
  password := h.password
  imei := h.imei
  email := h.email
  email_eq := h.email_eq
  emailText := h.emailText
  imeiText := h.imeiText
  user := hkept.users h.user
  meter := by
    obtain ⟨m, hm, hrow⟩ := h.meter
    exact ⟨m, hkept.portalMeters hm, hrow⟩

/-! ### Logins -/

variable (S) in
/-- In whichever order the rows come, the login opens the session. -/
def LogsIn (db : PortalDb N) (identifier password : Str) (session : Session) : Prop :=
  ∀ order : List PortalUser → List PortalUser, (∀ rows, (order rows).Perm rows) →
    login S order db ⟨identifier, password⟩ = .ok session

omit [JsNumber N] in
theorem loginRows_subset (db : PortalDb N) (identifier : Str) :
    loginRows S db identifier ⊆ db.users := by
  intro u hu
  unfold loginRows at hu
  split at hu
  · exact List.mem_of_mem_filter hu
  · obtain ⟨v, hv, hu⟩ := List.mem_flatMap.1 hu
    obtain ⟨-, -, rfl⟩ := List.mem_map.1 hu
    exact hv

omit [JsNumber N] in
theorem mem_loginRows_email {identifier : Str} (h : '@' ∈ identifier) {u : PortalUser} :
    u ∈ loginRows S db identifier ↔ u ∈ db.users ∧ u.email = Node.toLowerCase S identifier := by
  have hlooks := (looksLikeEmail_iff identifier).2 h
  rw [loginRows, if_pos hlooks, loginParameter, if_pos hlooks, List.mem_filter, decide_eq_true_iff]

omit [JsNumber N] in
theorem mem_loginRows_imei {identifier : Str} (h : '@' ∉ identifier) {u : PortalUser} :
    u ∈ loginRows S db identifier ↔ u ∈ db.users ∧
      ∃ m ∈ db.portalMeters, m.userId = u.id ∧ m.imei = normalizeImei identifier := by
  have hlooks := mt (looksLikeEmail_iff identifier).1 h
  rw [loginRows, if_neg hlooks, loginParameter, if_neg hlooks]
  simp only [List.mem_flatMap, List.mem_map, List.mem_filter, Bool.and_eq_true,
    decide_eq_true_iff]
  constructor
  · rintro ⟨v, hv, m, hm, rfl⟩
    exact ⟨hv, m, hm⟩
  · rintro ⟨hu, m, hm⟩
    exact ⟨u, hu, m, hm, rfl⟩

section Lawful

variable [LawfulNode S] {session : Session}

omit [JsNumber N] in
/-- The password of an account opens its session, and only its own, from whatever row
    comes first. -/
theorem logsIn_iff (h : Consistent db) (haccount : Account db req session) {identifier : Str}
    (hidentifier : trim identifier ≠ []) :
    LogsIn S db identifier req.password session ↔
      textColumn (loginParameter S (trim identifier)) ≠ none ∧
      loginRows S db (trim identifier) ≠ [] ∧
      ∀ v ∈ loginRows S db (trim identifier), v.id = session.userId := by
  have hempty : ¬ ((trim identifier).isEmpty || req.password.isEmpty) = true := by
    simp [hidentifier, haccount.password]
  by_cases hnul : textColumn (loginParameter S (trim identifier)) = none
  · -- the query fails
    refine iff_of_false (fun hlogs => ?_) fun hrows => hrows.1 hnul
    have hlogin := hlogs id fun rows => List.Perm.refl rows
    simp only [login] at hlogin
    rw [if_neg hempty, if_pos hnul] at hlogin
    cases hlogin
  · have hlogin (order : List PortalUser → List PortalUser) :
        login S order db ⟨identifier, req.password⟩ =
          match order (loginRows S db (trim identifier)) with
          | [] => .error "Unknown user or IMEI".toList 401
          | user :: _ =>
            if Node.compare S req.password user.passwordHash then .ok ⟨user.id, user.email⟩
            else .error "Bad password".toList 401 := by
      simp only [login]
      rw [if_neg hempty, if_neg hnul]
    constructor
    · intro hlogs
      refine ⟨hnul, ?_, ?_⟩
      · -- without a row the login fails
        intro hrows
        have hfirst := hlogs id fun rows => List.Perm.refl rows
        rw [hlogin, id, hrows] at hfirst
        cases hfirst
      · -- an order in which this row is the first
        intro v hv
        let order (rows : List PortalUser) : List PortalUser :=
          if v ∈ rows then v :: rows.erase v else rows
        have horder : ∀ rows, (order rows).Perm rows := by
          intro rows
          by_cases hmem : v ∈ rows
          · show (if v ∈ rows then v :: rows.erase v else rows).Perm rows
            rw [if_pos hmem]
            exact (List.perm_cons_erase hmem).symm
          · show (if v ∈ rows then v :: rows.erase v else rows).Perm rows
            rw [if_neg hmem]
        have hfirst := hlogs order horder
        have hrows : order (loginRows S db (trim identifier)) =
            v :: (loginRows S db (trim identifier)).erase v := if_pos hv
        rw [hlogin, hrows] at hfirst
        simp only at hfirst
        split at hfirst
        · cases hfirst
          rfl
        · cases hfirst
    · rintro ⟨-, hne, hown⟩ order horder
      rw [hlogin]
      cases hrows : order (loginRows S db (trim identifier)) with
      | nil =>
        have hperm := horder (loginRows S db (trim identifier))
        rw [hrows] at hperm
        exact absurd hperm.symm.eq_nil hne
      | cons v rest =>
        have hv : v ∈ loginRows S db (trim identifier) := by
          rw [← (horder _).mem_iff, hrows]
          exact List.mem_cons_self
        -- the first row is the account's, and so is the hash that it is compared with
        have heq : v = ⟨session.userId, session.email, Node.hash req.salt req.password⟩ :=
          h.id_unique v (loginRows_subset db _ hv) _ haccount.user (hown v hv)
        simp only [heq, LawfulNode.compare_hash, decide_true, if_true]

omit [JsNumber N] in
/-- An identifier that looks like an email leads to the account with that email. -/
theorem logsIn_email_iff (h : Consistent db) (haccount : Account db req session) {identifier : Str}
    (hat : '@' ∈ identifier) :
    LogsIn S db identifier req.password session ↔
      Node.toLowerCase S (trim identifier) = session.email := by
  have hat' : '@' ∈ trim identifier := (at_trim identifier).2 hat
  have hparameter : loginParameter S (trim identifier) = Node.toLowerCase S (trim identifier) :=
    if_pos ((looksLikeEmail_iff _).2 hat')
  rw [logsIn_iff h haccount (List.ne_nil_of_mem hat'), hparameter]
  constructor
  · rintro ⟨-, hne, hown⟩
    obtain ⟨v, hv⟩ := List.exists_mem_of_ne_nil _ hne
    have hmem := (mem_loginRows_email hat').1 hv
    have heq := h.id_unique v hmem.1 _ haccount.user (hown v hv)
    rw [← hmem.2, heq]
  · intro hemail
    refine ⟨hemail ▸ haccount.emailText, ?_, ?_⟩
    · exact List.ne_nil_of_mem ((mem_loginRows_email hat').2 ⟨haccount.user, hemail.symm⟩)
    · intro v hv
      have hmem := (mem_loginRows_email hat').1 hv
      rw [h.email_unique v hmem.1 _ haccount.user (hmem.2.trans hemail)]

omit [JsNumber N] in
/-- An IMEI leads to the account if no other account has it. -/
theorem logsIn_imei_iff (h : Consistent db) (haccount : Account db req session)
    (hat : '@' ∉ req.imei) :
    LogsIn S db req.imei req.password session ↔
      ∀ m ∈ db.portalMeters, m.imei = normalizeImei req.imei → m.userId = session.userId := by
  have hat' : '@' ∉ trim req.imei := mt (at_trim req.imei).1 hat
  have hne : trim req.imei ≠ [] := by
    intro hempty
    have himei := haccount.imei
    rw [← normalizeImei_trim, hempty] at himei
    exact himei rfl
  have hparameter : loginParameter S (trim req.imei) = normalizeImei req.imei := by
    rw [loginParameter, if_neg (mt (looksLikeEmail_iff _).1 hat'), normalizeImei_trim]
  rw [logsIn_iff h haccount hne, hparameter]
  constructor
  · rintro ⟨-, -, hown⟩ m hm himei
    -- the owner of a meter with this IMEI is among the rows
    obtain ⟨u, hu, hid⟩ := h.owner m hm
    rw [← hid]
    refine hown u ((mem_loginRows_imei hat').2 ⟨hu, m, hm, hid.symm, ?_⟩)
    rw [normalizeImei_trim, himei]
  · intro hown
    obtain ⟨m, hm, hid, himei⟩ := haccount.meter
    refine ⟨haccount.imeiText, List.ne_nil_of_mem ((mem_loginRows_imei hat').2
      ⟨haccount.user, m, hm, hid, ?_⟩), ?_⟩
    · rw [normalizeImei_trim, himei]
    · intro v hv
      obtain ⟨-, m, hm, hid, himei⟩ := (mem_loginRows_imei hat').1 hv
      rw [← hid]
      exact hown m hm (by rw [himei, normalizeImei_trim])

/-- The tables before anyone has registered. -/
def noAccounts (cloud : Db N) : PortalDb N := ⟨cloud, [], [], 1⟩

omit [JsNumber N] in
theorem consistent_noAccounts (cloud : Db N) : Consistent (noAccounts cloud) :=
  ⟨nofun, nofun, nofun, nofun⟩

/-- After any registrations, before and after that of an account, its email leads to the account;
    its IMEI does if and only if it is no other account's, or, where it looks like an email, if it
    is the email of the account. -/
theorem logins_agree_iff (cloud : Db N) (before after : List (Register S)) (req : Register S)
    (session : Session)
    (h : (register (registered (noAccounts cloud) before) req).1 = .ok session) :
    let db := registered (noAccounts cloud) (before ++ req :: after)
    LogsIn S db req.email req.password session ∧
    (LogsIn S db req.email req.password session ∧ LogsIn S db req.imei req.password session ↔
      if '@' ∈ req.imei then Node.toLowerCase S (trim req.imei) = session.email
      else ∀ m ∈ db.portalMeters, m.imei = normalizeImei req.imei →
        m.userId = session.userId) := by
  intro db
  have hbefore := registered_keeps (consistent_noAccounts cloud) before
  have hstep := register_keeps hbefore.1 req
  have hafter := registered_keeps hstep.1 after
  have hdb : db = registered (register (registered (noAccounts cloud) before) req).2 after :=
    List.foldl_append
  rw [hdb]
  -- later registrations keep the account
  have haccount := (register_ok h).kept hafter.2
  have hemail : '@' ∈ req.email := by
    have hat := haccount.email
    rwa [haccount.email_eq, LawfulNode.at_toLowerCase, at_trim] at hat
  have hlogs := (logsIn_email_iff hafter.1 haccount hemail).2 haccount.email_eq.symm
  refine ⟨hlogs, ?_⟩
  rw [and_iff_right hlogs]
  by_cases hat : '@' ∈ req.imei
  · rw [if_pos hat]
    exact logsIn_email_iff hafter.1 haccount hat
  · rw [if_neg hat]
    exact logsIn_imei_iff hafter.1 haccount hat

end Lawful

end Effects

/-! ### Two households -/

instance : JsNumber Exact where
  ofRat := .finite
  add := Exact.add
  mul := Exact.mul
  div x y :=
    if y = .finite 0 then if x = .finite 0 ∨ x = .nan then .nan else .infinity x.isNeg
    else Exact.div x y
  max x y := if x = .nan ∨ y = .nan then .nan else if Exact.lt x y then y else x
  falsy x := x = .finite 0 ∨ x = .nan
  sin
    | .finite q => .finite (Exact.sinSeries q)
    | _ => .nan
  pi := .finite (355 / 113)

/-- The letters of ASCII, and hashes that show the password. -/
instance : Node Unit where
  toLowerCase text := text.map Char.toLower
  hash _ password := "$2b$10$".toList ++ password
  compare password hash := hash = "$2b$10$".toList ++ password

theorem toLower_eq_at (c : Char) : c.toLower = '@' ↔ c = '@' := by
  by_cases hc : c.isAlpha = true
  · -- neither a letter nor its small letter is the sign
    have hlower : c.toLower.isAlpha = true := by rw [Char.isAlpha_toLower_eq_isAlpha, hc]
    refine iff_of_false (fun heq => ?_) fun heq => ?_
    · rw [heq] at hlower
      exact absurd hlower (by decide)
    · rw [heq] at hc
      exact absurd hc (by decide)
  · have hupper : ¬ c.isUpper = true := by
      intro hupper
      exact hc (by rw [Char.isAlpha, hupper, Bool.true_or])
    rw [Char.toLower_eq_of_not_isUpper hupper]

instance : LawfulNode Unit where
  at_toLowerCase text := by
    show '@' ∈ text.map Char.toLower ↔ '@' ∈ text
    rw [List.mem_map]
    constructor
    · rintro ⟨c, hc, heq⟩
      rwa [(toLower_eq_at c).1 heq] at hc
    · exact fun h => ⟨'@', h, rfl⟩
  compare_hash _ p q := by
    show decide ("$2b$10$".toList ++ q = "$2b$10$".toList ++ p) = decide (p = q)
    exact decide_eq_decide.2 (by rw [List.append_cancel_left_eq, eq_comm])

/-- A household that registers a meter. -/
def household (email password imei : String) : Register Unit where
  email := email.toList
  password := password.toList
  imei := imei.toList
  address := []
  now := 0
  salt := ()
  fault _ := none

def first : Register Unit := household "Ana@home.gt " "correct horse" "861234 567890 123"

def second (imei : String) : Register Unit := household "ben@home.gt" "battery staple" imei

/-- Two households with a meter each. -/
theorem logins_agree_two :
    let db := registered (noAccounts noMeters) ([] ++ first :: [second "861234567890124"])
    LogsIn Unit db first.email first.password ⟨1, "ana@home.gt".toList⟩ ∧
    LogsIn Unit db first.imei first.password ⟨1, "ana@home.gt".toList⟩ :=
  (logins_agree_iff noMeters [] [second "861234567890124"] first ⟨1, "ana@home.gt".toList⟩
    (by decide +kernel)).2.2 (by decide +kernel)

/-- The second household registers the meter of the first, and the IMEI leads to whichever row comes
    first. -/
theorem logins_clash :
    let before := registered (noAccounts noMeters) [first]
    let db := registered (noAccounts noMeters) [first, second "861234567890123"]
    (register (noAccounts noMeters) first).1 = .ok ⟨1, "ana@home.gt".toList⟩ ∧
    (register before (second "861234567890123")).1 = .ok ⟨2, "ben@home.gt".toList⟩ ∧
    login Unit List.reverse db ⟨first.imei, first.password⟩ = .error "Bad password".toList 401 ∧
    login Unit id db ⟨"861234567890123".toList, "battery staple".toList⟩ =
      .error "Bad password".toList 401 ∧
    ¬ LogsIn Unit db first.imei first.password ⟨1, "ana@home.gt".toList⟩ ∧
    ¬ LogsIn Unit db "861234567890123".toList "battery staple".toList
      ⟨2, "ben@home.gt".toList⟩ := by
  refine ⟨by decide +kernel, by decide +kernel, by decide +kernel, by decide +kernel, ?_, ?_⟩
  · intro hlogs
    exact absurd (hlogs List.reverse List.reverse_perm) (by decide +kernel)
  · intro hlogs
    exact absurd (hlogs id List.Perm.refl) (by decide +kernel)

end Portal

end Waterbox
