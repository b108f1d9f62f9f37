import Waterbox.Portal.Accounts

namespace Waterbox

namespace Portal

/-!
# What a registration that fails leaves

The statements of a registration are committed one by one.  Where one of them is refused, those
before it stay.

* `Left` — the three kinds of leftovers; `register_left`: there are no others.
* `Ready` — what a request needs of itself; `register_ok_iff`: when a registration succeeds.
* `register_failed` — what is as before after a failure, and what becomes of another try.
-/

open Cloud

section Leftovers

variable {S N : Type} [Node S] [JsNumber N] {db db' : PortalDb N} {req again : Register S}

/-- The texts of the request do not pass the check of the route. -/
def TextsRefused (req : Register S) : Prop :=
  (!(Node.toLowerCase S (trim req.email)).contains '@' || utf16Length req.password < 8 ||
    utf16Length (normalizeImei req.imei) < 8) = true

instance (req : Register S) : Decidable (TextsRefused req) := inferInstanceAs (Decidable (_ = true))

/-- The row of a meter that has not reported yet. -/
def newMeter (now : Nat) : Meter :=
  { firstSeen := now, lastSeen := now, pulsesPerLiter := none, valve := none, fpValid := false }

/-- The tables after `ensureMeter`. -/
def ensured (db : PortalDb N) (req : Register S) : PortalDb N :=
  if (db.cloud.meters.lookup (normalizeImei req.imei)).isSome then db
  else
    { db with
      cloud :=
        { db.cloud with
          meters := db.cloud.meters.insert (normalizeImei req.imei) (newMeter req.now) } }

/-- The tables with the account, but without its meter. -/
def withAccount (db : PortalDb N) (req : Register S) : PortalDb N :=
  { ensured db req with
    users := db.users ++ [accountOf db req]
    nextUserId := db.nextUserId + 1 }

/-- The last statement. -/
def lastInsert (db : PortalDb N) (req : Register S) : Except Str (PortalDb N) :=
  insertPortalMeter req.fault db.nextUserId (normalizeImei req.imei) (normalizeImei req.imei)
    (if (trim req.address).isEmpty then none else some (trim req.address)) (withAccount db req)

/-- Nothing is left, or at most a meter and a number of the sequence, or also an account. -/
inductive Left (db : PortalDb N) (req : Register S) : Reply × PortalDb N → Prop
  | nothing (reply : Reply) : Left db req (reply, db)
  | meter (message : Str) (next : Nat) (htexts : ¬ TextsRefused req)
      (hnext : db.nextUserId ≤ next) :
      Left db req (registerFailed message, { ensured db req with nextUserId := next })
  | account (message : Str) (htexts : ¬ TextsRefused req) (h : lastInsert db req = .error message) :
      Left db req (registerFailed message, withAccount db req)

omit [Node S] [JsNumber N] in
theorem ensured_users (db : PortalDb N) (req : Register S) : (ensured db req).users = db.users := by
  unfold ensured
  split_ifs <;> rfl

omit [Node S] [JsNumber N] in
theorem ensured_portalMeters (db : PortalDb N) (req : Register S) :
    (ensured db req).portalMeters = db.portalMeters := by
  unfold ensured
  split_ifs <;> rfl

omit [Node S] [JsNumber N] in
theorem ensured_nextUserId (db : PortalDb N) (req : Register S) :
    (ensured db req).nextUserId = db.nextUserId := by
  unfold ensured
  split_ifs <;> rfl

omit [Node S] [JsNumber N] in
theorem lookup_ensured (db : PortalDb N) (req : Register S) :
    ((ensured db req).cloud.meters.lookup (normalizeImei req.imei)).isSome := by
  unfold ensured
  split_ifs with h
  · exact h
  · show ((db.cloud.meters.insert _ _).lookup _).isSome
    rw [AList.lookup_insert]
    rfl

omit [Node S] [JsNumber N] in
/-- A row for the meter may be new, and nothing else. -/
theorem ensured_cloud (db : PortalDb N) (req : Register S) :
    (ensured db req).cloud = db.cloud ∨
      db.cloud.meters.lookup (normalizeImei req.imei) = none ∧
        (ensured db req).cloud =
          { db.cloud with
            meters := db.cloud.meters.insert (normalizeImei req.imei) (newMeter req.now) } := by
  unfold ensured
  split_ifs with hmeter
  · exact .inl rfl
  · exact .inr ⟨Option.not_isSome_iff_eq_none.1 hmeter, rfl⟩

omit [Node S] [JsNumber N] in
theorem ensureMeter_eq (db : PortalDb N) (req : Register S) :
    ensureMeter req.fault req.now (normalizeImei req.imei) db = (do
      refused (req.fault .insertMeter)
      textParameter (normalizeImei req.imei)
      pure (ensured db req)) := by
  unfold ensureMeter ensured
  split_ifs <;> rfl

omit [JsNumber N] in
theorem withAccount_eq (db : PortalDb N) (req : Register S) :
    withAccount db req =
      { ensured db req with
        users := (ensured db req).users ++
          [⟨(ensured db req).nextUserId, Node.toLowerCase S (trim req.email),
            Node.hash req.salt req.password⟩]
        nextUserId := (ensured db req).nextUserId + 1 } := by
  rw [ensured_users, ensured_nextUserId]
  rfl

/-- The statements of a registration, one after the other. -/
theorem register_eq (db : PortalDb N) (req : Register S) :
    register db req =
      if TextsRefused req then (.error "Need email, 8+ char password, and IMEI".toList 400, db)
      else
        match (do
          ensurePortalSchema req.fault
          ensureMeter req.fault req.now (normalizeImei req.imei) db) with
        | .error _ => (.thrown, db)
        | .ok db₁ =>
          match insertPortalUser req.fault (Node.toLowerCase S (trim req.email))
            (Node.hash req.salt req.password) db₁ with
          | (.error message, db₂) => (registerFailed message, db₂)
          | (.ok userId, db₂) =>
            match insertPortalMeter req.fault userId (normalizeImei req.imei)
              (normalizeImei req.imei)
              (if (trim req.address).isEmpty then none else some (trim req.address)) db₂ with
            | .error message => (registerFailed message, db₂)
            | .ok db₃ => (.ok ⟨userId, Node.toLowerCase S (trim req.email)⟩, db₃) := by
  unfold register TextsRefused
  extract_lets email imei address
  refine ite_congr rfl (fun _ => rfl) fun _ => ?_
  cases ensurePortalSchema req.fault with
  | error message => rfl
  | ok =>
    show _ = match ensureMeter req.fault req.now imei db with
      | .error _ => _
      | .ok db₁ => _
    cases ensureMeter req.fault req.now imei db with
    | error message => rfl
    | ok db₁ => rfl

omit [JsNumber N] in
/-- The row of `portal_users` is refused, or the account is there. -/
theorem insertPortalUser_ensured (db : PortalDb N) (req : Register S) :
    (∃ message next, db.nextUserId ≤ next ∧
      insertPortalUser req.fault (Node.toLowerCase S (trim req.email))
        (Node.hash req.salt req.password) (ensured db req) =
          (.error message, { ensured db req with nextUserId := next })) ∨
    insertPortalUser req.fault (Node.toLowerCase S (trim req.email))
      (Node.hash req.salt req.password) (ensured db req) =
        (.ok db.nextUserId, withAccount db req) := by
  have hid := ensured_nextUserId db req
  rcases insertPortalUser_cases req.fault (Node.toLowerCase S (trim req.email))
    (Node.hash req.salt req.password) (ensured db req) with
      ⟨message, next, hnext, huser⟩ | ⟨-, -, huser⟩
  · exact .inl ⟨message, next, hid ▸ hnext, huser⟩
  · refine .inr ?_
    rw [huser, withAccount_eq, hid]

omit [Node S] [JsNumber N] in
theorem registerFailed_ne_thrown (message : Str) : registerFailed message ≠ .thrown := by
  unfold registerFailed
  split <;> exact nofun

/-- What a registration leaves that does not succeed. -/
theorem register_left (h : ∀ session, (register db req).1 ≠ .ok session) :
    Left db req (register db req) := by
  rw [register_eq] at h ⊢
  by_cases htexts : TextsRefused req
  · rw [if_pos htexts]
    exact .nothing _
  rw [if_neg htexts] at h ⊢
  cases hmeter : (do
      ensurePortalSchema req.fault
      ensureMeter req.fault req.now (normalizeImei req.imei) db) with
  | error message => exact .nothing _
  | ok db₁ =>
    rw [hmeter] at h
    rw [ensureMeter_eq] at hmeter
    -- the schema and the meter are there, so the rest begins with `ensured db req`
    simp only [bind_ok] at hmeter
    obtain ⟨_, _, _, _, _, _, hmeter⟩ := hmeter
    cases hmeter
    dsimp only at h ⊢
    rcases insertPortalUser_ensured db req with ⟨message, next, hnext, huser⟩ | huser
    · rw [huser]
      exact .meter message next htexts hnext
    · rw [huser] at h ⊢
      dsimp only at h ⊢
      cases hlast : lastInsert db req with
      | error message =>
        rw [lastInsert] at hlast
        rw [hlast]
        exact .account message htexts hlast
      | ok db₃ =>
        rw [lastInsert] at hlast
        rw [hlast] at h
        exact absurd rfl (h ⟨db.nextUserId, Node.toLowerCase S (trim req.email)⟩)

/-! ### When a registration succeeds -/

theorem bind_unit_ok {β : Type} {x : Except Str Unit} {f : Unit → Except Str β} {b : β} :
    (x >>= f) = .ok b ↔ x = .ok () ∧ f () = .ok b :=
  bind_ok.trans ⟨fun ⟨_, hx, hf⟩ => ⟨hx, hf⟩, fun ⟨hx, hf⟩ => ⟨(), hx, hf⟩⟩

theorem refused_ok_iff {fault : Option Str} : refused fault = .ok () ↔ fault = none := by
  cases fault <;> simp [refused]

theorem textParameter_ok_iff {text : Str} :
    textParameter text = .ok () ↔ textColumn text ≠ none := by
  unfold textParameter
  cases textColumn text <;> simp

/-- What a request needs of itself: texts that pass, and statements that are not refused. -/
structure Ready (req : Register S) : Prop where
  texts : ¬ TextsRefused req
  faults : ∀ statement, req.fault statement = none
  imei : textColumn (normalizeImei req.imei) ≠ none
  email : textColumn (Node.toLowerCase S (trim req.email)) ≠ none
  hash : textColumn (Node.hash req.salt req.password) ≠ none
  address : textColumn (trim req.address) ≠ none

theorem ensurePortalSchema_ok_iff {fault : Statement → Option Str} :
    ensurePortalSchema fault = .ok () ↔
      fault .createPortalUsers = none ∧ fault .createPortalMeters = none := by
  rw [ensurePortalSchema, bind_unit_ok, refused_ok_iff, refused_ok_iff]

/-- The last statement succeeds in consistent tables, where it is not refused. -/
theorem lastInsert_ok_iff (h : Consistent db) :
    (∃ db', lastInsert db req = .ok db') ↔
      req.fault .insertPortalMeter = none ∧ textColumn (normalizeImei req.imei) ≠ none ∧
        textColumn (trim req.address) ≠ none := by
  have haddress : (if (trim req.address).isEmpty then none else some (trim req.address)).getD [] =
      trim req.address := by
    split_ifs with hempty
    · exact (List.isEmpty_iff.1 hempty).symm
    · rfl
  have hfresh : (withAccount db req).portalMeters.any (fun m =>
      m.userId = db.nextUserId && m.imei = normalizeImei req.imei) = false := by
    rw [withAccount, List.any_eq_false]
    intro m hm
    -- the owner of a meter has an earlier number
    obtain ⟨u, hu, hid⟩ := h.owner m ((ensured_portalMeters db req) ▸ hm)
    have := h.fresh u hu
    simp
    omega
  have huser : (withAccount db req).users.all (·.id ≠ db.nextUserId) = false := by
    rw [withAccount, List.all_eq_false]
    exact ⟨accountOf db req, List.mem_append_right _ (List.mem_singleton_self _),
      by simp [accountOf]⟩
  have hmeter : ((withAccount db req).cloud.meters.lookup
      (normalizeImei req.imei)).isNone = false := by
    rw [Option.isNone_eq_false_iff]
    exact lookup_ensured db req
  simp only [lastInsert, insertPortalMeter, bind_unit_ok, refused_ok_iff, textParameter_ok_iff,
    haddress, hfresh, huser, hmeter, Bool.false_eq_true, if_false]
  constructor
  · rintro ⟨_, hfault, himei, -, htext, -⟩
    exact ⟨hfault, himei, htext⟩
  · rintro ⟨hfault, himei, htext⟩
    exact ⟨_, hfault, himei, himei, htext, rfl⟩

omit [JsNumber N] in
/-- The row of an account is inserted where its email is new and the sequence has another number. -/
theorem insertPortalUser_ok_iff :
    (∃ id, (insertPortalUser req.fault (Node.toLowerCase S (trim req.email))
        (Node.hash req.salt req.password) (ensured db req)).1 = .ok id) ↔
      (req.fault .insertPortalUser = none ∧
        textColumn (Node.toLowerCase S (trim req.email)) ≠ none ∧
        textColumn (Node.hash req.salt req.password) ≠ none) ∧
      db.nextUserId < 2 ^ 31 ∧ ∀ u ∈ db.users, u.email ≠ Node.toLowerCase S (trim req.email) := by
  have hparameters : (do
      refused (req.fault .insertPortalUser)
      textParameter (Node.toLowerCase S (trim req.email))
      textParameter (Node.hash req.salt req.password)) = .ok () ↔
        req.fault .insertPortalUser = none ∧
          textColumn (Node.toLowerCase S (trim req.email)) ≠ none ∧
          textColumn (Node.hash req.salt req.password) ≠ none := by
    rw [bind_unit_ok, bind_unit_ok, refused_ok_iff, textParameter_ok_iff, textParameter_ok_iff]
  rw [← hparameters, insertPortalUser, ensured_users, ensured_nextUserId]
  split
  · rename_i message hrefused
    rw [hrefused]
    exact ⟨fun ⟨_, hok⟩ => (nomatch hok), fun ⟨hok, _⟩ => (nomatch hok)⟩
  · rename_i hpassed
    rw [and_iff_right hpassed]
    -- the id is the next of the sequence, an `int`
    by_cases hlimit : 2 ^ 31 ≤ db.nextUserId
    · rw [if_pos hlimit]
      exact ⟨fun ⟨_, hok⟩ => (nomatch hok), fun ⟨hlt, _⟩ => absurd hlimit (not_le.2 hlt)⟩
    rw [if_neg hlimit, and_iff_right (not_le.1 hlimit)]
    by_cases htaken : db.users.any (·.email = Node.toLowerCase S (trim req.email)) = true
    · obtain ⟨u, hu, heq⟩ := List.any_eq_true.1 htaken
      rw [if_pos htaken]
      exact ⟨fun ⟨_, hok⟩ => (nomatch hok), fun hnew => absurd (of_decide_eq_true heq) (hnew u hu)⟩
    · rw [if_neg htaken]
      refine iff_of_true ⟨_, rfl⟩ fun u hu heq => ?_
      exact htaken (List.any_eq_true.2 ⟨u, hu, decide_eq_true heq⟩)

omit [Node S] [JsNumber N] in
theorem prepared_ok_iff {db₁ : PortalDb N} :
    (do
      ensurePortalSchema req.fault
      ensureMeter req.fault req.now (normalizeImei req.imei) db) = .ok db₁ ↔
      ((req.fault .createPortalUsers = none ∧ req.fault .createPortalMeters = none) ∧
        req.fault .insertMeter = none ∧ textColumn (normalizeImei req.imei) ≠ none) ∧
      ensured db req = db₁ := by
  rw [ensureMeter_eq, bind_unit_ok, ensurePortalSchema_ok_iff, bind_unit_ok, bind_unit_ok,
    refused_ok_iff, textParameter_ok_iff]
  simp only [pure, Except.pure, Except.ok.injEq, and_assoc]

/-- A registration succeeds where each of its statements does. -/
theorem register_ok_iff_statements :
    (∃ session, (register db req).1 = .ok session) ↔
      ¬ TextsRefused req ∧
      ((req.fault .createPortalUsers = none ∧ req.fault .createPortalMeters = none) ∧
        req.fault .insertMeter = none ∧ textColumn (normalizeImei req.imei) ≠ none) ∧
      (∃ id, (insertPortalUser req.fault (Node.toLowerCase S (trim req.email))
        (Node.hash req.salt req.password) (ensured db req)).1 = .ok id) ∧
      ∃ db', lastInsert db req = .ok db' := by
  rw [register_eq]
  by_cases htexts : TextsRefused req
  · rw [if_pos htexts]
    exact ⟨fun ⟨_, hok⟩ => (nomatch hok), fun ⟨hpass, _⟩ => absurd htexts hpass⟩
  rw [if_neg htexts, and_iff_right htexts]
  -- the statements come one after the other, and each may be the last
  cases hprepared : (do
      ensurePortalSchema req.fault
      ensureMeter req.fault req.now (normalizeImei req.imei) db) with
  | error message =>
    refine ⟨fun ⟨_, hok⟩ => (nomatch hok), fun ⟨hready, _⟩ => ?_⟩
    rw [prepared_ok_iff.2 ⟨hready, rfl⟩] at hprepared
    cases hprepared
  | ok db₁ =>
    obtain ⟨hready, rfl⟩ := prepared_ok_iff.1 hprepared
    rw [and_iff_right hready]
    dsimp only
    rcases insertPortalUser_ensured db req with ⟨message, next, -, huser⟩ | huser
    · rw [huser]
      exact ⟨fun ⟨_, hok⟩ => absurd hok (registerFailed_ne_ok message _),
        fun ⟨⟨_, hok⟩, _⟩ => (nomatch hok)⟩
    · rw [huser, and_iff_right ⟨_, rfl⟩]
      show (∃ session, (match lastInsert db req with
        | .error message => (registerFailed message, withAccount db req)
        | .ok db₃ => (.ok ⟨db.nextUserId, Node.toLowerCase S (trim req.email)⟩, db₃)).1 =
          .ok session) ↔ _
      cases lastInsert db req with
      | error message =>
        exact ⟨fun ⟨_, hok⟩ => absurd hok (registerFailed_ne_ok message _),
          fun ⟨_, hok⟩ => (nomatch hok)⟩
      | ok db₃ => exact iff_of_true ⟨_, rfl⟩ ⟨_, rfl⟩

/-- When a registration succeeds: the request is ready, its email is new, and there is another
    number for the account. -/
theorem register_ok_iff (h : Consistent db) :
    (∃ session, (register db req).1 = .ok session) ↔
      Ready req ∧ db.nextUserId < 2 ^ 31 ∧
        ∀ u ∈ db.users, u.email ≠ Node.toLowerCase S (trim req.email) := by
  rw [register_ok_iff_statements, insertPortalUser_ok_iff, lastInsert_ok_iff h]
  constructor
  · rintro ⟨htexts, ⟨⟨husers, hmeters⟩, hmeter, himei⟩, ⟨⟨huser, hemail, hhash⟩, hnew⟩, hlast,
      -, haddress⟩
    refine ⟨⟨htexts, fun statement => ?_, himei, hemail, hhash, haddress⟩, hnew⟩
    cases statement <;> assumption
  · rintro ⟨hready, hnew⟩
    exact ⟨hready.texts, ⟨⟨hready.faults _, hready.faults _⟩, hready.faults _, hready.imei⟩,
      ⟨⟨hready.faults _, hready.email, hready.hash⟩, hnew⟩, hready.faults _, hready.imei,
      hready.address⟩

/-! ### What stays -/

/-- After a registration that fails, no row was changed or removed and no meter has got an owner.  A
    row for the meter may be new, and one for the account if the last statement was the one that
    failed. Nothing is new where the texts were refused or a statement before the inserts failed.
    Unless the account is there, later requests succeed as they would have before; with it, none
    with its email does. -/
theorem register_failed (db : PortalDb N) (req : Register S)
    (h : ∀ session, (register db req).1 ≠ .ok session) :
    let db' := (register db req).2
    db'.portalMeters = db.portalMeters ∧
    (db'.users = db.users ∨
      db'.users = db.users ++ [accountOf db req] ∧ ∃ message, lastInsert db req = .error message) ∧
    (db'.cloud = db.cloud ∨
      db.cloud.meters.lookup (normalizeImei req.imei) = none ∧
        db'.cloud =
          { db.cloud with
            meters := db.cloud.meters.insert (normalizeImei req.imei) (newMeter req.now) }) ∧
    (TextsRefused req ∨ (register db req).1 = .thrown → db' = db) ∧
    (Consistent db → ∀ again : Register S,
      (db'.users = db.users → db'.nextUserId < 2 ^ 31 →
        ((∃ session, (register db' again).1 = .ok session) ↔
          ∃ session, (register db again).1 = .ok session)) ∧
      (db'.users ≠ db.users → again.email = req.email →
        ∀ session, (register db' again).1 ≠ .ok session)) := by
  have hleft := register_left h
  have hconsistent := fun hdb : Consistent db => (register_keeps hdb req).1
  generalize register db req = result at hleft hconsistent ⊢
  have hcloud := ensured_cloud db req
  -- a statement that failed behind the texts is told, not thrown
  have htold {message : Str} (htexts : ¬ TextsRefused req) :
      ¬ (TextsRefused req ∨ registerFailed message = .thrown) := by
    rintro (hrefused | hthrown)
    · exact htexts hrefused
    · exact registerFailed_ne_thrown message hthrown
  -- whether a registration succeeds depends on the accounts, and on the next id
  have hretry : ∀ db' : PortalDb N, db.nextUserId ≤ db'.nextUserId →
      (Consistent db → Consistent db') →
      db'.users = db.users → Consistent db → ∀ again : Register S, db'.nextUserId < 2 ^ 31 →
        ((∃ session, (register db' again).1 = .ok session) ↔
          ∃ session, (register db again).1 = .ok session) := by
    intro db' hnext hkeeps husers hdb again hlimit
    rw [register_ok_iff (hkeeps hdb), register_ok_iff hdb, husers]
    exact and_congr_right fun _ => and_congr_left fun _ => iff_of_true hlimit (by omega)
  cases hleft with
  | nothing reply =>
    refine ⟨rfl, .inl rfl, .inl rfl, fun _ => rfl, fun hdb again => ⟨fun _ _ => Iff.rfl, ?_⟩⟩
    exact fun hne => absurd rfl hne
  | meter message next htexts hnext =>
    have husers : (ensured db req).users = db.users := ensured_users db req
    refine ⟨ensured_portalMeters db req, .inl husers, hcloud, ?_, fun hdb again => ⟨?_, ?_⟩⟩
    · exact fun hyes => absurd hyes (htold htexts)
    · exact fun _ hlimit => hretry _ hnext hconsistent husers hdb again hlimit
    · exact fun hne => absurd husers hne
  | account message htexts hlast =>
    refine ⟨ensured_portalMeters db req, .inr ⟨rfl, message, hlast⟩, hcloud, ?_,
      fun hdb again => ⟨?_, ?_⟩⟩
    · exact fun hyes => absurd hyes (htold htexts)
    · intro husers
      exact absurd husers (by simp [withAccount])
    · -- the email of the account is taken
      intro _ hemail session hok
      have hnew := ((register_ok_iff (hconsistent hdb)).1 ⟨session, hok⟩).2.2
      refine hnew (accountOf db req) (List.mem_append_right _ (List.mem_singleton_self _)) ?_
      rw [hemail]
      rfl

end Leftovers

/-! ### A household that tries again -/

/-- The second household takes the email of the first: it is told so, and leaves a row for its
    meter. -/
theorem register_failed_taken :
    let db : PortalDb Exact := registered (noAccounts noMeters) [first]
    let req := household "ana@home.gt" "battery staple" "861234567890124"
    (register db req).1 = .error "Email already registered".toList 409 ∧
    (register db req).2.portalMeters = db.portalMeters ∧
    (register db req).2.users = db.users := by
  intro db req
  have hreply : (register db req).1 = .error "Email already registered".toList 409 := by
    decide +kernel
  obtain ⟨hmeters, husers, -⟩ := register_failed db req fun session hok => by
    rw [hreply] at hok
    cases hok
  refine ⟨hreply, hmeters, husers.resolve_right ?_⟩
  rintro ⟨hnew, -⟩
  exact absurd hnew (by decide +kernel)

/-- An address with a character that the database refuses leaves the account and the meter's row,
    and the corrected request is told that the email is taken. -/
theorem register_leaves :
    let req : Register Unit := { first with address := "3a Calle\x00".toList }
    let db : PortalDb Exact := noAccounts noMeters
    let db' := (register db req).2
    (register db req).1 =
      .error "invalid byte sequence for encoding \"UTF8\": 0x00".toList 400 ∧
    db.users = [] ∧ db'.users.length = 1 ∧ db'.portalMeters = [] ∧
    db.cloud.meters.keys = [] ∧ db'.cloud.meters.keys = ["861234567890123".toList] ∧
    (register db' { req with address := "3a Calle".toList }).1 =
      .error "Email already registered".toList 409 := by
  decide +kernel

end Portal

end Waterbox
