import Waterbox.Cloud.Exact
import Waterbox.Firmware.Arrivals

namespace Waterbox

namespace Cloud

/-!
# From the worker to the device

The fingerprint that `to_mqtt_json` writes is read by `parseFingerprint`, which looks for the
first occurrence of each key.

* `key_found` — each key is found at its own member.
* `parseFingerprint_toMqttJson` — the coefficients that are read.
* `fingerprint_delivered` — the call of the handler.
-/

open Text GsmMqttClient

variable {F D : Type} [Python D]

/-! ### The text as an object -/

/-- The coefficients that are sent. -/
def FitParams.coefficients (fp : FitParams D) : List D :=
  [fp.w, fp.a1, fp.p1, fp.a2, fp.p2, fp.t1, fp.t2]

/-- The members of the text. -/
def mqttFields (fp : FitParams D) : List Field :=
  [("w".toList, formatted (fixedText 4) fp.w), ("a1".toList, formatted (fixedText 4) fp.a1),
   ("p1".toList, formatted (fixedText 4) fp.p1), ("a2".toList, formatted (fixedText 4) fp.a2),
   ("p2".toList, formatted (fixedText 4) fp.p2), ("t1".toList, formatted generalText fp.t1),
   ("t2".toList, formatted generalText fp.t2)]

/-- The text of the body, member by member. -/
theorem toMqttJson_eq (fp : FitParams D) : toMqttJson fp = objectText (mqttFields fp) := by
  unfold toMqttJson
  simp only [objectText, fieldsText, mqttFields, quoted, String.reduceToList, List.append_assoc,
    List.cons_append, List.nil_append]

theorem formatted_finite {write : Bool → ℚ → Str} {x : D} (hx : Python.isFinite x = true) :
    formatted write x = write (Python.signBit x) (Python.value x) := if_pos hx

/-- What the format specifications write for a finite number is made of the characters of numbers.
    -/
theorem numberChar_formatted {write : Bool → ℚ → Str} {x : D} (hx : Python.isFinite x = true)
    (hwrite : ∀ neg q, ∀ c ∈ write neg q, NumberChar c) :
    ∀ c ∈ formatted write x, NumberChar c := by
  rw [formatted_finite hx]
  exact hwrite _ _

section Finite

variable {fp : FitParams D}

/-- The values of the members are numbers. -/
theorem numberChar_mqttFields (hfinite : ∀ x ∈ fp.coefficients, Python.isFinite x = true) :
    ∀ f ∈ mqttFields fp, ∀ c ∈ f.2, NumberChar c := by
  have hdecimals : ∀ x ∈ fp.coefficients, ∀ c ∈ formatted (fixedText 4) x, NumberChar c :=
    fun x hx => numberChar_formatted (hfinite x hx) fun _ _ => numberChar_fixedText
  have hgeneral : ∀ x ∈ fp.coefficients, ∀ c ∈ formatted generalText x, NumberChar c :=
    fun x hx => numberChar_formatted (hfinite x hx) fun _ _ => numberChar_generalText
  simp only [FitParams.coefficients, List.forall_mem_cons] at hdecimals hgeneral
  obtain ⟨hw, ha1, hp1, ha2, hp2, -⟩ := hdecimals
  obtain ⟨-, -, -, -, -, ht1, ht2, -⟩ := hgeneral
  simp only [mqttFields, List.forall_mem_cons]
  exact ⟨hw, ha1, hp1, ha2, hp2, ht1, ht2, fun _ hf => nomatch hf⟩

theorem numberChar_ne {c d : Char} (hc : NumberChar c) (hdigit : d.isDigit = false)
    (hd : d ∉ ['-', '+', '.', 'e']) : c ≠ d := by
  rcases hc with hc | hc
  · exact ne_of_isDigit hc hdigit
  · rintro rfl
    exact hd hc

theorem keys_mqttFields : (mqttFields fp).map Prod.fst =
    ["w".toList, "a1".toList, "p1".toList, "a2".toList, "p2".toList, "t1".toList, "t2".toList] := by
  simp only [mqttFields, List.map_cons, List.map_nil]

/-- No value holds a quotation mark, a comma or a brace, so that no key stands in one. -/
theorem clean_mqttFields (hfinite : ∀ x ∈ fp.coefficients, Python.isFinite x = true) :
    ∀ f ∈ mqttFields fp, f.Clean := by
  have hkeys : ∀ key ∈ (mqttFields fp).map Prod.fst, '"' ∉ key ∧ ':' ∉ key := by
    rw [keys_mqttFields]
    decide
  intro f hf
  refine ⟨hkeys f.1 (List.mem_map_of_mem hf), fun hmem => ?_⟩
  exact numberChar_ne (numberChar_mqttFields hfinite f hf _ hmem) (by decide) (by decide) rfl

/-- Each key is found at its own member. -/
theorem key_found (hfinite : ∀ x ∈ fp.coefficients, Python.isFinite x = true)
    {pre post : List Field}
    {f : Field} (hsplit : mqttFields fp = pre ++ f :: post) :
    strstr (quoted f.1) (toMqttJson fp) = some (fieldsText (f :: post)) := by
  have hclean := clean_mqttFields hfinite
  have hnodup : ((mqttFields fp).map Prod.fst).Nodup := by
    rw [keys_mqttFields]
    decide
  rw [hsplit] at hclean hnodup
  rw [List.map_append, List.map_cons, List.nodup_append] at hnodup
  rw [toMqttJson_eq, hsplit]
  refine strstr_objectText (fun g hg => hclean g (List.mem_append_left _ hg))
    (hclean f (by simp)) fun g hg heq => ?_
  exact hnodup.2.2 g.1 (List.mem_map_of_mem hg) f.1 List.mem_cons_self heq.symm

/-! ### Reading the coefficients -/

section Reading

variable [CFloat F] [LawfulAtof F]

theorem jsonFloat_toMqttJson (hfinite : ∀ x ∈ fp.coefficients, Python.isFinite x = true) {f : Field}
    (hf : f ∈ mqttFields fp) {q : ℚ} (hq : ∀ t, EndsNumber t → numeral (f.2 ++ t) = .number q) :
    (jsonFloat (toMqttJson fp) (quoted f.1) : Option F) = some (CFloat.ofRat q) := by
  obtain ⟨pre, post, hsplit⟩ := List.append_of_mem hf
  obtain ⟨c, t, hc, hcolon⟩ := strchr_fieldsText (clean_mqttFields hfinite f hf) post
  have hends : EndsNumber (c :: t) := by
    rintro d ⟨⟩
    rcases hc with rfl | rfl <;> decide
  simp only [jsonFloat, key_found hfinite hsplit, hcolon, List.tail_cons, LawfulAtof.atof_eq,
    hq _ hends, CFloat.ofNumeral]

variable [LawfulPython D]

omit [CFloat F] [LawfulAtof F] in
/-- `.4f` is read back as the number rounded to four decimals. -/
theorem numeral_decimals {x : D} (hx : Python.isFinite x = true) {t : Str} (ht : EndsNumber t) :
    numeral (formatted (fixedText 4) x ++ t) = .number (roundTo 4 (Python.value x)) := by
  rw [formatted_finite hx, numeral_fixedText]
  exact congrArg _ (strtod_fixedText (LawfulPython.signBit_eq x) (by decide) ht)

omit [CFloat F] [LawfulAtof F] in
/-- And `:g` as the number rounded to six digits. -/
theorem numeral_general {x : D} (hx : Python.isFinite x = true) {t : Str} (ht : EndsNumber t) :
    numeral (formatted generalText x ++ t) = .number (roundSig (Python.value x)) := by
  rw [formatted_finite hx, numeral_generalText]
  exact congrArg _ (strtod_generalText (LawfulPython.signBit_eq x) ht)

omit [LawfulAtof F] [LawfulPython D] in
/-- The parameters that arrive: four decimals, and six digits of the periods. -/
def received (fp : FitParams D) : Params F where
  mean := CFloat.ofRat (roundTo 4 (Python.value fp.w))
  a1 := CFloat.ofRat (roundTo 4 (Python.value fp.a1))
  phi1 := CFloat.ofRat (roundTo 4 (Python.value fp.p1))
  t1 := CFloat.ofRat (roundSig (Python.value fp.t1))
  a2 := CFloat.ofRat (roundTo 4 (Python.value fp.a2))
  phi2 := CFloat.ofRat (roundTo 4 (Python.value fp.p2))
  t2 := CFloat.ofRat (roundSig (Python.value fp.t2))

/-- The parser finds all seven keys. -/
theorem parseFingerprint_toMqttJson (hfinite : ∀ x ∈ fp.coefficients, Python.isFinite x = true) :
    parseFingerprint (toMqttJson fp) = some (received fp : Params F) := by
  -- five of the numbers are written with four decimals, the two periods with `:g`
  have hdecimals : ∀ (key : Str) (x : D), x ∈ fp.coefficients →
      (key, formatted (fixedText 4) x) ∈ mqttFields fp →
      (jsonFloat (toMqttJson fp) (quoted key) : Option F) =
        some (CFloat.ofRat (roundTo 4 (Python.value x))) := fun _ _ hx hmem =>
    jsonFloat_toMqttJson hfinite hmem fun _ => numeral_decimals (hfinite _ hx)
  have hgeneral : ∀ (key : Str) (x : D), x ∈ fp.coefficients →
      (key, formatted generalText x) ∈ mqttFields fp →
      (jsonFloat (toMqttJson fp) (quoted key) : Option F) =
        some (CFloat.ofRat (roundSig (Python.value x))) := fun _ _ hx hmem =>
    jsonFloat_toMqttJson hfinite hmem fun _ => numeral_general (hfinite _ hx)
  have hw : (jsonFloat (toMqttJson fp) "\"w\"".toList : Option F) = _ :=
    hdecimals "w".toList fp.w (by simp [FitParams.coefficients]) (by simp [mqttFields])
  have ha1 : (jsonFloat (toMqttJson fp) "\"a1\"".toList : Option F) = _ :=
    hdecimals "a1".toList fp.a1 (by simp [FitParams.coefficients]) (by simp [mqttFields])
  have hp1 : (jsonFloat (toMqttJson fp) "\"p1\"".toList : Option F) = _ :=
    hdecimals "p1".toList fp.p1 (by simp [FitParams.coefficients]) (by simp [mqttFields])
  have ht1 : (jsonFloat (toMqttJson fp) "\"t1\"".toList : Option F) = _ :=
    hgeneral "t1".toList fp.t1 (by simp [FitParams.coefficients]) (by simp [mqttFields])
  have ha2 : (jsonFloat (toMqttJson fp) "\"a2\"".toList : Option F) = _ :=
    hdecimals "a2".toList fp.a2 (by simp [FitParams.coefficients]) (by simp [mqttFields])
  have hp2 : (jsonFloat (toMqttJson fp) "\"p2\"".toList : Option F) = _ :=
    hdecimals "p2".toList fp.p2 (by simp [FitParams.coefficients]) (by simp [mqttFields])
  have ht2 : (jsonFloat (toMqttJson fp) "\"t2\"".toList : Option F) = _ :=
    hgeneral "t2".toList fp.t2 (by simp [FitParams.coefficients]) (by simp [mqttFields])
  simp only [parseFingerprint, hw, ha1, hp1, ht1, ha2, hp2, ht2, Option.isSome_some, if_true,
    Option.getD_some, received]

end Reading

/-! ### The message -/

/-- So the text ends nowhere before its end. -/
theorem nul_notMem_toMqttJson (hfinite : ∀ x ∈ fp.coefficients, Python.isFinite x = true) :
    '\x00' ∉ toMqttJson fp := by
  have hkeys : ∀ key ∈ (mqttFields fp).map Prod.fst, '\x00' ∉ key := by
    rw [keys_mqttFields]
    decide
  intro hmem
  rw [toMqttJson_eq, objectText, List.mem_cons] at hmem
  rcases hmem with hmem | hmem
  · exact absurd hmem (by decide)
  rcases mem_fieldsText hmem with hmem | ⟨f, hf, hmem | hmem⟩
  · exact absurd hmem (by decide)
  · exact hkeys f.1 (List.mem_map_of_mem hf) hmem
  · exact numberChar_ne (numberChar_mqttFields hfinite f hf _ hmem) (by decide) (by decide) rfl

/-- Nothing of the text is taken for white space or for the end of a string. -/
theorem copyMsg_toMqttJson (hfinite : ∀ x ∈ fp.coefficients, Python.isFinite x = true)
    (hlen : (toMqttJson fp).length ≤ 179) :
    copyMsg (GsmMqttClient.strip (toMqttJson fp)) = toMqttJson fp := by
  rw [toMqttJson_eq, strip_objectText, ← toMqttJson_eq]
  exact copyMsg_eq_self (nul_notMem_toMqttJson hfinite) hlen

end Finite

/-- A fingerprint of finite coefficients, delivered on the topic of the meter, is one call of the
    handler, with the coefficients to four decimals and the periods to six digits; each key is
    found at its own member of the text. -/
theorem fingerprint_delivered [CFloat F] [LawfulAtof F] [LawfulPython D] (fp : FitParams D)
    (hfinite : ∀ x ∈ fp.coefficients, Python.isFinite x = true)
    (hlen : (toMqttJson fp).length ≤ 179) :
    (∀ (pre post : List Field) (f : Field), mqttFields fp = pre ++ f :: post →
      strstr (quoted f.1) (toMqttJson fp) = some (fieldsText (f :: post))) ∧
    (∀ (h : Handlers F) (s : Sys F), s.board.radio.topicFp ≠ [] →
      GsmMqttClient.onMessage h s.board.radio.topicFp (toMqttJson fp) s =
        h.fingerprint (received fp) s) ∧
    ∀ q : ℚ, |roundTo 4 q - q| ≤ 1 / 2 * 10 ^ (-4 : Int) ∧
      (q ≠ 0 →
        (∃ (m : Nat) (e : Int), 10 ^ 5 ≤ m ∧ m < 10 ^ 6 ∧
          roundSig q = scaled (q < 0) m (e - 5)) ∧
        |roundSig q - q| ≤ 1 / 2 * 10 ^ (Int.log 10 |q| - 5)) := by
  refine ⟨fun pre post f hsplit => key_found hfinite hsplit, fun h s htopic => ?_, fun q => ?_⟩
  · have hparse : parseFingerprint (copyMsg (GsmMqttClient.strip (toMqttJson fp))) =
        some (received fp : Params F) := by
      rw [copyMsg_toMqttJson hfinite hlen, parseFingerprint_toMqttJson hfinite]
    simp only [GsmMqttClient.onMessage, Bind.bind, look, Cut.read, ne_eq, htopic,
      not_false_eq_true, true_and, if_true, hparse]
  · exact ⟨abs_roundTo_sub_le 4 q, roundSig_spec⟩

/-- The consumption of a household, with one period that is hardly one. -/
def household : FitParams Exact where
  w := .finite (123456789 / 10000000)
  a1 := .finite (1 / 3)
  p1 := .finite (-1 / 50000)
  t1 := .finite 24
  a2 := .finite 0
  p2 := .finite (-22 / 7)
  t2 := .finite (1 / 30000)
  nSamples := some 48

/-- The device after its start. -/
def started : Sys Single :=
  (WaterboxFsm.firmware 3 (Sys.powerUp blank false 0 (List.replicate 300 willing))).2

theorem fingerprint_delivered_started :
    strstr "\"p1\"".toList (toMqttJson household) =
      some ("\"p1\":-0.0000,\"a2\":0.0000,\"p2\":-3.1429,".toList ++
        "\"t1\":24,\"t2\":3.33333e-05\x7d".toList) ∧
    (GsmMqttClient.onMessage WaterboxFsm.handlers started.board.radio.topicFp
      (toMqttJson household) started).2.board.signature.params = received household := by
  have hdelivered := fingerprint_delivered (F := Single) household (by decide) (by decide +kernel)
  constructor
  · exact (hdelivered.1 ((mqttFields household).take 2) ((mqttFields household).drop 3)
      ("p1".toList, formatted (fixedText 4) household.p1) rfl).trans (by decide +kernel)
  · rw [hdelivered.2.1 WaterboxFsm.handlers started (by decide +kernel)]
    decide +kernel

end Cloud

end Waterbox
