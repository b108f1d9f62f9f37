import Waterbox.Firmware.PlainMessages

namespace Waterbox

/-!
# The coefficients a fingerprint message gives

A message on the fingerprint topic is a JSON object with the mean `w` and up to six more numbers.
`parseFingerprint()` looks for each of them behind the first colon after the first place of its key,
in the part of the message that `msg_` holds.

* `Told` — a coefficient is what the object says, or its default where the object is silent.
* `Accepted` — a message is taken if and only if it has a mean, with what it says.
* `Faithful` — where the keys stand in the text, and the numbers behind them.
* `heeded_iff_read` — the handler's part, as one of what `parseFingerprint()` returns.
* `faithful_plain` — an object that is written plainly.
* `fingerprints_accepted_iff` — messages that are taken as they are meant.
-/

open Text
open Json (Member)

variable {F : Type}

/-- The members of an object. -/
abbrev Members := List (List Char × Json (Option ℚ))

namespace GsmMqttClient

/-- The coefficients: their keys, their defaults, and where they are kept. -/
def coefficients : List (CString × ℚ × (Params F → F)) :=
  [("w".toList, 0, Params.mean), ("a1".toList, 0, Params.a1), ("p1".toList, 0, Params.phi1),
   ("t1".toList, 24, Params.t1), ("a2".toList, 0, Params.a2), ("p2".toList, 0, Params.phi2),
   ("t2".toList, 12, Params.t2)]

/-- The keys are single words. -/
theorem coefficients_keys : ∀ c ∈ coefficients (F := F), '"' ∉ c.1 ∧ ':' ∉ c.1 := by
  simp only [coefficients, List.forall_mem_cons, List.not_mem_nil, false_imp_iff, implies_true,
    and_true]
  decide

section Meaning

variable [CFloat F]

/-- A number is the one an object has for a key, or the default where it has no such member. -/
def Told (ms : Members) (key : CString) (default : ℚ) (x : F) : Prop :=
  (∃ q, Json.numberAt key ms = some q ∧ x = CFloat.ofRat q) ∨
    (key ∉ ms.map Prod.fst ∧ x = CFloat.ofRat default)

variable (F) in
/-- The handler is called if and only if the object has a number `w`, with the coefficients the
    object gives. -/
def Heeded (payload : CString) (ms : Members) : Prop :=
  ∀ (h : Handlers F) (s : Sys F), Listening s →
    ((Json.numberAt "w".toList ms).isSome = true →
      ∃ params : Params F, (∀ c ∈ coefficients, Told ms c.1 c.2.1 (c.2.2 params)) ∧
        onMessage h s.board.radio.topicFp payload s = h.fingerprint params s) ∧
    ((Json.numberAt "w".toList ms).isSome = false →
      onMessage h s.board.radio.topicFp payload s = (some (), s))

variable (F) in
/-- What stands in the first 179 bytes of a message for the number of a member, or for its default.
    Where the object has the number, a colon follows the first place of the key and behind it stands
    that number; or no colon follows, and the number is the default.  Where the object has no such
    member, no colon follows, or behind it stands the default. -/
def Leads (payload : CString) (ms : Members) (key : CString) (default : ℚ) : Prop :=
  match Json.numberAt key ms with
  | some q =>
    (∃ text, BehindColon key (copyMsg (strip payload)) text ∧
      (CFloat.ofNumeral (numeral text) : F) = CFloat.ofRat q) ∨
    ((∀ text, ¬ BehindColon key (copyMsg (strip payload)) text) ∧
      (CFloat.ofRat default : F) = CFloat.ofRat q)
  | none => key ∉ ms.map Prod.fst ∧
      ∀ text, BehindColon key (copyMsg (strip payload)) text →
        (CFloat.ofNumeral (numeral text) : F) = CFloat.ofRat default

variable (F) in
/-- A message that is a JSON object is heeded. -/
def Accepted (payload : CString) : Prop :=
  ∀ ms, Json.object payload = some ms → Heeded F payload ms

variable (F) in
/-- Where a message is a JSON object, a colon follows the first place of the key of the mean in its
    first 179 bytes if and only if the object has a number `w`; and then each of the seven numbers
    stands where its key leads. -/
def Faithful (payload : CString) : Prop :=
  ∀ ms, Json.object payload = some ms →
    ((∃ text, BehindColon "w".toList (copyMsg (strip payload)) text) ↔
        (Json.numberAt "w".toList ms).isSome = true) ∧
      ((Json.numberAt "w".toList ms).isSome = true →
        ∀ c ∈ coefficients (F := F), Leads F payload ms c.1 c.2.1)

end Meaning

variable [CFloat F]

/-- The number that `parseFingerprint()` takes for a key. -/
def taken (payload key : CString) (default : ℚ) : F :=
  ((behind (quoted key) (strip payload)).map CFloat.atof).getD (CFloat.ofRat default)

/-- Where the object has the number, it is what is told. -/
theorem told_some {ms : Members} {key : CString} {default q : ℚ} {x : F}
    (hq : Json.numberAt key ms = some q) : Told ms key default x ↔ x = CFloat.ofRat q := by
  constructor
  · rintro (⟨_, h, hx⟩ | ⟨hno, -⟩)
    · rw [hq] at h
      rw [Option.some.inj h]
      exact hx
    · exact absurd (Json.mem_of_numberAt hq) hno
  · exact fun hx => .inl ⟨q, hq, hx⟩

theorem told_none {ms : Members} {key : CString} {default : ℚ} {x : F}
    (hq : Json.numberAt key ms = none) :
    Told ms key default x ↔ key ∉ ms.map Prod.fst ∧ x = CFloat.ofRat default := by
  refine or_iff_right ?_
  rintro ⟨_, h, -⟩
  rw [hq] at h
  cases h

/-- What is taken stands behind the key, or is the default. -/
theorem taken_cases [LawfulAtof F] (payload : CString) {key : CString} (hkey : ':' ∉ key)
    (default : ℚ) :
    (∃ text, BehindColon key (copyMsg (strip payload)) text ∧
      (taken payload key default : F) = CFloat.ofNumeral (numeral text)) ∨
    ((∀ text, ¬ BehindColon key (copyMsg (strip payload)) text) ∧
      (taken payload key default : F) = CFloat.ofRat default) := by
  rw [taken]
  cases hbehind : behind (quoted key) (strip payload) with
  | some text => exact .inl ⟨text, (behind_eq_some_iff hkey).1 hbehind, LawfulAtof.atof_eq text⟩
  | none => exact .inr ⟨(behind_eq_none_iff hkey).1 hbehind, rfl⟩

theorem told_taken_iff [LawfulAtof F] (payload : CString) (ms : Members) {key : CString}
    (hkey : ':' ∉ key) (default : ℚ) :
    Told ms key default (taken payload key default : F) ↔ Leads F payload ms key default := by
  rw [Leads]
  rcases taken_cases (F := F) payload hkey default with ⟨text, hbehind, hx⟩ | ⟨hno, hx⟩
  · -- this is the only place that a key leads to
    have honly : ∀ text', BehindColon key (copyMsg (strip payload)) text' → text' = text :=
      fun _ h => behindColon_unique hkey h hbehind
    cases hq : Json.numberAt key ms with
    | some q =>
      rw [told_some hq, hx]
      constructor
      · exact fun h => .inl ⟨text, hbehind, h⟩
      · rintro (⟨text', hbehind', h⟩ | ⟨hno, -⟩)
        · rwa [honly text' hbehind'] at h
        · exact absurd hbehind (hno text)
    | none =>
      rw [told_none hq, hx]
      refine and_congr_right fun _ => ⟨fun h text' hbehind' => ?_, fun h => h text hbehind⟩
      rwa [honly text' hbehind']
  · cases hq : Json.numberAt key ms with
    | some q =>
      rw [told_some hq, hx]
      constructor
      · exact fun h => .inr ⟨hno, h⟩
      · rintro (⟨text, hbehind, -⟩ | ⟨-, h⟩)
        · exact absurd hbehind (hno text)
        · exact h
    | none =>
      rw [told_none hq]
      exact and_congr_right fun _ => ⟨fun _ text h => absurd h (hno text), fun _ => hx⟩

/-- What is read of a message. -/
theorem parseFingerprint_eq (payload : CString) :
    parseFingerprint (copyMsg (strip payload)) =
      if (behind (quoted "w".toList) (strip payload)).isSome then
        some
          ({ mean := taken payload "w".toList 0
             a1 := taken payload "a1".toList 0
             phi1 := taken payload "p1".toList 0
             t1 := taken payload "t1".toList 24
             a2 := taken payload "a2".toList 0
             phi2 := taken payload "p2".toList 0
             t2 := taken payload "t2".toList 12 } : Params F)
      else none := by
  simp only [parseFingerprint, jsonFloat_copyMsg, Option.isSome_map]
  rfl

theorem field_of_parseFingerprint {payload : CString} {params : Params F}
    (h : parseFingerprint (copyMsg (strip payload)) = some params) :
    ∀ c ∈ coefficients (F := F), c.2.2 params = taken payload c.1 c.2.1 := by
  rw [parseFingerprint_eq] at h
  split at h
  case isTrue =>
    rw [← Option.some.inj h]
    simp only [coefficients, List.forall_mem_cons, List.not_mem_nil, false_imp_iff, implies_true,
      and_self]
  case isFalse => cases h

/-- Handlers that keep the coefficients. -/
def keeper : Handlers F where
  yield := pure ()
  command _ := pure ()
  fingerprint params := change fun b => { b with signature := { params := params, valid := true } }

/-- What is asked of the handler is asked of the result of `parseFingerprint()`. -/
theorem heeded_iff_read (payload : CString) (ms : Members) :
    Heeded F payload ms ↔
      ((Json.numberAt "w".toList ms).isSome = true →
        ∃ params : Params F, parseFingerprint (copyMsg (strip payload)) = some params ∧
          ∀ c ∈ coefficients, Told ms c.1 c.2.1 (c.2.2 params)) ∧
      ((Json.numberAt "w".toList ms).isSome = false →
        parseFingerprint (F := F) (copyMsg (strip payload)) = none) := by
  constructor
  · intro h
    -- a meter that is listening shows what every meter does with the payload
    have hheard := listening_heard (F := F) blank false []
    obtain ⟨hsome, hnone⟩ := h keeper _ hheard
    rw [onMessage_fingerprint hheard] at hsome hnone
    cases hread : parseFingerprint (F := F) (copyMsg (strip payload)) with
    | some params =>
      rw [hread] at hsome hnone
      refine ⟨fun hw => ?_, fun hw => ?_⟩
      · obtain ⟨params', htold, hrun⟩ := hsome hw
        have hparams : params = params' := congrArg (fun r => r.2.board.signature.params) hrun
        exact ⟨params, rfl, hparams ▸ htold⟩
      · have hvalid : true = false := congrArg (fun r => r.2.board.signature.valid) (hnone hw)
        cases hvalid
    | none =>
      rw [hread] at hsome
      refine ⟨fun hw => ?_, fun _ => rfl⟩
      obtain ⟨params', -, hrun⟩ := hsome hw
      have hvalid : false = true := congrArg (fun r => r.2.board.signature.valid) hrun
      cases hvalid
  · rintro ⟨hsome, hnone⟩ h s hs
    rw [onMessage_fingerprint hs]
    refine ⟨fun hw => ?_, fun hw => ?_⟩
    · obtain ⟨params, hread, htold⟩ := hsome hw
      exact ⟨params, htold, by rw [hread]; rfl⟩
    · rw [hnone hw]
      rfl

theorem behind_isSome_iff {payload key : CString} (hkey : ':' ∉ key) :
    (behind (quoted key) (strip payload)).isSome = true ↔
      ∃ text, BehindColon key (copyMsg (strip payload)) text := by
  rw [Option.isSome_iff_exists]
  exact exists_congr fun text => behind_eq_some_iff hkey

variable [LawfulAtof F]

/-- The coefficients that are read are the ones that are told if and only if the keys lead to their
    members. -/
theorem read_told_iff (payload : CString) (ms : Members) :
    (∃ params : Params F, parseFingerprint (copyMsg (strip payload)) = some params ∧
        ∀ c ∈ coefficients, Told ms c.1 c.2.1 (c.2.2 params)) ↔
      (behind (quoted "w".toList) (strip payload)).isSome = true ∧
        ∀ c ∈ coefficients (F := F), Leads F payload ms c.1 c.2.1 := by
  constructor
  · rintro ⟨params, hread, htold⟩
    refine ⟨?_, fun c hc => ?_⟩
    · rw [parseFingerprint_eq] at hread
      by_contra hno
      rw [if_neg hno] at hread
      cases hread
    · rw [← told_taken_iff _ _ (coefficients_keys c hc).2, ← field_of_parseFingerprint hread c hc]
      exact htold c hc
  · rintro ⟨hw, hleads⟩
    have hread := parseFingerprint_eq (F := F) payload
    rw [if_pos hw] at hread
    refine ⟨_, hread, fun c hc => ?_⟩
    rw [field_of_parseFingerprint hread c hc, told_taken_iff _ _ (coefficients_keys c hc).2]
    exact hleads c hc

omit [LawfulAtof F] in
theorem parseFingerprint_eq_none_iff (payload : CString) :
    parseFingerprint (F := F) (copyMsg (strip payload)) = none ↔
      (behind (quoted "w".toList) (strip payload)).isSome = false := by
  rw [parseFingerprint_eq]
  cases (behind (quoted "w".toList) (strip payload)).isSome with
  | true => exact iff_of_false (fun h => nomatch h) (fun h => nomatch h)
  | false => exact iff_of_true rfl rfl

omit [LawfulAtof F] in
/-- An object that is written plainly, in which each coefficient is a number, is read as it is
    meant. -/
theorem faithful_plain {ms : List (Member (Option ℚ))} (h : PlainMessage ms)
    (hnumbers : ∀ c ∈ coefficients (F := F), ∀ m ∈ ms, m.key = c.1 →
      (Json.asNumber m.value).isSome = true) :
    Faithful F (Json.objectText ms) := by
  -- where the key of a coefficient leads
  have hleads : ∀ c ∈ coefficients (F := F),
      (∃ text q, BehindColon c.1 (Json.objectText ms) text ∧
        Json.numberAt c.1 (ms.map Member.entry) = some q ∧ numeral text = .number q) ∨
      ((∀ text, ¬ BehindColon c.1 (Json.objectText ms) text) ∧
        Json.numberAt c.1 (ms.map Member.entry) = none ∧
        c.1 ∉ (ms.map Member.entry).map Prod.fst) := by
    intro c hc
    by_cases hkey : c.1 ∈ ms.map Member.key
    · obtain ⟨m, hm, hmc⟩ := List.mem_map.1 hkey
      obtain ⟨q, hq⟩ := Option.isSome_iff_exists.1 (hnumbers c hc m hm hmc)
      obtain ⟨hnumber, text, hbehind, hnumeral⟩ := h.behindColon_number hm hq
      rw [hmc] at hbehind hnumber
      exact .inl ⟨text, q, hbehind, hnumber, hnumeral⟩
    · obtain ⟨hquote, hcolon⟩ := coefficients_keys c hc
      exact .inr ⟨h.behindColon_absent hquote hcolon hkey, PlainMessage.numberAt_absent hkey⟩
  intro entries hentries
  rw [h.object_eq] at hentries
  cases hentries
  rw [PlainMessage.strip_eq, h.copyMsg_eq]
  refine ⟨?_, fun _ c hc => ?_⟩
  · rcases hleads ("w".toList, 0, Params.mean) (by simp [coefficients]) with
      ⟨text, _, hbehind, hnumber, -⟩ | ⟨hno, hnumber, -⟩
    · rw [hnumber]
      exact iff_of_true ⟨text, hbehind⟩ rfl
    · rw [hnumber]
      exact iff_of_false (fun ⟨text, h⟩ => hno text h) (fun h => nomatch h)
  · rw [Leads, PlainMessage.strip_eq, h.copyMsg_eq]
    rcases hleads c hc with ⟨text, q, hbehind, hnumber, hnumeral⟩ | ⟨hno, hnumber, habsent⟩
    · rw [hnumber]
      exact .inl ⟨text, hbehind, by rw [hnumeral]; rfl⟩
    · rw [hnumber]
      exact ⟨habsent, fun text h => absurd h (hno text)⟩

/-- A message that is a JSON object is taken as it is meant if and only if its keys lead to its
    members, as they do in an object that is written plainly. -/
theorem fingerprints_accepted_iff :
    (∀ payload : CString, Accepted F payload ↔ Faithful F payload) ∧
      ∀ ms : List (Member (Option ℚ)), PlainMessage ms →
        (∀ c ∈ coefficients (F := F), ∀ m ∈ ms, m.key = c.1 →
          (Json.asNumber m.value).isSome = true) →
        Accepted F (Json.objectText ms) := by
  have hiff : ∀ payload : CString, Accepted F payload ↔ Faithful F payload := by
    intro payload
    refine forall_congr' fun ms => imp_congr_right fun _ => ?_
    rw [heeded_iff_read, read_told_iff, parseFingerprint_eq_none_iff,
      ← behind_isSome_iff (by decide)]
    cases (Json.numberAt "w".toList ms).isSome with
    | true =>
      refine ⟨fun h => ⟨iff_of_true (h.1 rfl).1 rfl, fun _ => (h.1 rfl).2⟩, fun h => ?_⟩
      exact ⟨fun _ => ⟨h.1.2 rfl, h.2 rfl⟩, nofun⟩
    | false =>
      refine ⟨fun h => ⟨iff_of_false ?_ Bool.false_ne_true, nofun⟩, fun h => ⟨nofun, fun _ => ?_⟩⟩
      · exact Bool.eq_false_iff.1 (h.2 rfl)
      · exact Bool.eq_false_iff.2 (mt h.1.1 Bool.false_ne_true)
  exact ⟨hiff, fun ms h hnumbers => (hiff _).2 (faithful_plain h hnumbers)⟩

/-- A mean and one amplitude behind another member are taken. -/
theorem fingerprint_accepted_plain :
    Accepted Single "\x7b\"n\":7,\"w\":1.5,\"a1\":-2\x7d".toList := by
  let n : Member (Option ℚ) := ⟨"n".toList, sdec 7, .int 7, by decide, Json.denotes_sdec _⟩
  let w : Member (Option ℚ) :=
    ⟨"w".toList, fixed 1 15, .float (some (scaled false 15 (-1))), by decide,
      Json.denotes_fixed false (by decide) 15⟩
  let a1 : Member (Option ℚ) :=
    ⟨"a1".toList, sdec (-2), .int (-2), by decide, Json.denotes_sdec _⟩
  have htext : Json.objectText [n, w, a1] = "\x7b\"n\":7,\"w\":1.5,\"a1\":-2\x7d".toList := by
    decide +kernel
  have hplain : PlainMessage [n, w, a1] := by
    refine ⟨by decide, by decide, ?_, by simp [n, w, a1, Json.standard], ?_, ?_⟩
    · decide +kernel
    · rw [htext]
      decide
    · rw [htext]
      decide
  rw [← htext]
  refine fingerprints_accepted_iff.2 _ hplain ?_
  intro c _ m hm _
  rcases List.mem_cons.1 hm with rfl | hm
  · rfl
  · rcases List.mem_pair.1 hm with rfl | rfl <;> rfl

/-- An amplitude that lies beyond the buffer. -/
def farAmplitude : CString :=
  "\x7b\"w\":1".toList ++ List.replicate 180 ' ' ++ ",\"a1\":2\x7d".toList

/-- A message of a packet that the client takes is installed without its amplitude. -/
theorem fingerprint_cut :
    (Packet.publish false (topic "861234567890123".toList "fp".toList) farAmplitude).len ≤
        PubSubClient.maxPacketSize ∧
      ¬Accepted Single farAmplitude := by
  refine ⟨by decide +kernel, fun h => ?_⟩
  have hnumbers : (Json.object farAmplitude).map (fun ms =>
      (Json.numberAt "w".toList ms, Json.numberAt "a1".toList ms)) = some (some 1, some 2) := by
    decide +kernel
  obtain ⟨ms, hobject, hms⟩ := Option.map_eq_some_iff.1 hnumbers
  obtain ⟨hw, ha1⟩ := Prod.mk.inj hms
  have hread := (heeded_iff_read _ _).1 (h ms hobject)
  obtain ⟨params, hparams, htold⟩ := hread.1 (by rw [hw]; rfl)
  -- the text that is copied ends before `a1`
  have hzero : params.a1 = CFloat.ofRat 0 := by
    have hmap : (parseFingerprint (copyMsg (strip farAmplitude))).map Params.a1 =
        some (CFloat.ofRat 0 : Single) := by decide +kernel
    rw [hparams] at hmap
    exact Option.some.inj hmap
  rcases htold ("a1".toList, 0, Params.a1) (by simp [coefficients]) with ⟨q, hq, hx⟩ | ⟨hno, -⟩
  · have htwo : q = 2 := Option.some.inj (hq.symm.trans ha1)
    have hx : params.a1 = CFloat.ofRat 2 := by
      rw [← htwo]
      exact hx
    rw [hzero] at hx
    exact absurd hx (by decide +kernel)
  · exact hno (Json.mem_of_numberAt ha1)

end GsmMqttClient

end Waterbox
