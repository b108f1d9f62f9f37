import Waterbox.Firmware.Arrivals
import Waterbox.Lib.JsonNumbers

namespace Waterbox

/-!
# Messages that are written plainly

In an object without white space, in whose values no quotation mark stands and that fits `msg_`, the
first place of each key is its own member.

* `PlainMessage` — the members of such an object.
* `behindColon_number` — a key leads to its member, whose number is read.
* `behindColon_absent` — a key of no member leads nowhere.
-/

open Json (Member Closes)
open Text (Field quoted)

/-- The members of an object that is written plainly. -/
structure PlainMessage (ms : List (Member (Option ℚ))) : Prop where
  distinct : (ms.map Member.key).Nodup
  colonless : ∀ m ∈ ms, ':' ∉ m.key
  unquoted : ∀ m ∈ ms, '"' ∉ m.text
  standard : ∀ m ∈ ms, Json.standard m.value = true
  nul : '\x00' ∉ Json.objectText ms
  fits : (Json.objectText ms).length ≤ 179

/-- A member as a field of the text. -/
def Json.Member.field (m : Member (Option ℚ)) : Field := (m.key, m.text)

/-- A plain object is the text of its fields. -/
theorem objectText_fields (ms : List (Member (Option ℚ))) :
    Json.objectText ms = Text.objectText (ms.map Member.field) := by
  have hwrite : ∀ m : Member (Option ℚ), m.write = quoted m.key ++ ':' :: m.text := by
    intro m
    simp [Member.write, quoted]
  have hmembers : Json.membersText ms = Text.fieldsText (ms.map Member.field) := by
    induction ms with
    | nil => rfl
    | cons m ms ih =>
      cases ms with
      | nil =>
        rw [Json.membersText, hwrite]
        rfl
      | cons m' ms =>
        show m.write ++ ',' :: Json.membersText (m' :: ms) = _
        rw [ih, hwrite]
        rfl
  rw [Json.objectText, hmembers]
  rfl

namespace PlainMessage

/-- No number for a key that is not there. -/
theorem numberAt_absent {ms : List (Member (Option ℚ))} {key : CString}
    (hkey : key ∉ ms.map Member.key) :
    Json.numberAt key (ms.map Member.entry) = none ∧ key ∉ (ms.map Member.entry).map Prod.fst := by
  have hfst : (ms.map Member.entry).map Prod.fst = ms.map Member.key := by
    rw [List.map_map]
    rfl
  refine ⟨?_, hfst ▸ hkey⟩
  cases hq : Json.numberAt key (ms.map Member.entry) with
  | none => rfl
  | some q => exact absurd (hfst ▸ Json.mem_of_numberAt hq) hkey

/-- There is no white space to strip. -/
theorem strip_eq (ms : List (Member (Option ℚ))) :
    GsmMqttClient.strip (Json.objectText ms) = Json.objectText ms := by
  rw [objectText_fields]
  exact GsmMqttClient.strip_objectText _

variable {ms : List (Member (Option ℚ))} (h : PlainMessage ms)
include h

theorem clean : ∀ f ∈ ms.map Member.field, f.Clean := by
  intro f hf
  obtain ⟨m, hm, rfl⟩ := List.mem_map.1 hf
  exact ⟨⟨fun hquote => (m.plain _ hquote).1 rfl, h.colonless m hm⟩, h.unquoted m hm⟩

/-- Nothing is cut off. -/
theorem copyMsg_eq : GsmMqttClient.copyMsg (Json.objectText ms) = Json.objectText ms :=
  GsmMqttClient.copyMsg_eq_self h.nul h.fits

/-! ### The members -/

/-- The text is the JSON object of its members. -/
theorem object_eq : Json.object (Json.objectText ms) = some (ms.map Member.entry) := by
  have hstandard : Json.standardMembers (ms.map Member.entry) = true := by
    have hall := h.standard
    clear h
    induction ms with
    | nil => rfl
    | cons m ms ih =>
      rw [List.map_cons, Member.entry, Json.standardMembers, hall m List.mem_cons_self,
        ih fun m' hm' => hall m' (List.mem_cons_of_mem _ hm')]
      rfl
  rw [Json.object, Json.loads_objectText]
  exact if_pos hstandard

/-- Where no key comes twice, a key stands for its own member. -/
theorem numberAt_eq {m : Member (Option ℚ)} (hm : m ∈ ms) :
    Json.numberAt m.key (ms.map Member.entry) = Json.asNumber m.value := by
  obtain ⟨pre, post, rfl⟩ := List.append_of_mem hm
  have hdistinct := h.distinct
  rw [List.map_append, List.map_cons, List.nodup_append] at hdistinct
  have hpost : ∀ m' ∈ post, m'.key ≠ m.key := by
    intro m' hm' heq
    exact (List.nodup_cons.1 hdistinct.2.1).1 (heq ▸ List.mem_map_of_mem hm')
  have hlookup : ((pre ++ m :: post).map Member.entry).reverse.lookup m.key = some m.value := by
    rw [List.lookup_eq_some_iff]
    refine ⟨(post.map Member.entry).reverse, (pre.map Member.entry).reverse, ?_, fun p hp => ?_⟩
    · simp [Member.entry]
    · obtain ⟨m', hm', rfl⟩ := List.mem_map.1 (List.mem_reverse.1 hp)
      exact bne_iff_ne.2 (hpost m' hm').symm
  rw [Json.numberAt, Json.get, hlookup]
  rfl

/-! ### The search -/

/-- A key leads to its own member. -/
theorem behind_member {m : Member (Option ℚ)} (hm : m ∈ ms) :
    ∃ c t, Closes c ∧
      GsmMqttClient.behind (quoted m.key) (Json.objectText ms) = some (m.text ++ c :: t) := by
  have hclean := h.clean
  obtain ⟨pre, post, rfl⟩ := List.append_of_mem hm
  have hdistinct := h.distinct
  rw [List.map_append, List.map_cons, List.nodup_append] at hdistinct
  rw [List.map_append, List.map_cons] at hclean
  have hne : ∀ g ∈ pre.map Member.field, m.field.1 ≠ g.1 := by
    intro g hg heq
    obtain ⟨m', hm', rfl⟩ := List.mem_map.1 hg
    exact hdistinct.2.2 m'.key (List.mem_map_of_mem hm') m.key List.mem_cons_self heq.symm
  have hfirst : Text.strstr (quoted m.field.1)
      (Text.objectText (pre.map Member.field ++ m.field :: post.map Member.field)) =
        some (Text.fieldsText (m.field :: post.map Member.field)) :=
    Text.strstr_objectText (fun g hg => hclean g (List.mem_append_left _ hg))
      (hclean m.field (by simp)) hne
  obtain ⟨c, t, hc, hcolon⟩ := Text.strchr_fieldsText (hclean m.field (by simp))
    (post.map Member.field)
  refine ⟨c, t, hc, ?_⟩
  rw [GsmMqttClient.behind, h.copyMsg_eq, objectText_fields, List.map_append, List.map_cons,
    show quoted m.key = quoted m.field.1 from rfl, hfirst]
  exact congrArg (Option.map List.tail) hcolon

/-- A key leads to its member, whose number is read. -/
theorem behindColon_number {m : Member (Option ℚ)} (hm : m ∈ ms) {q : ℚ}
    (hq : Json.asNumber m.value = some q) :
    Json.numberAt m.key (ms.map Member.entry) = some q ∧
      ∃ rest, Text.BehindColon m.key (Json.objectText ms) rest ∧ Text.numeral rest = .number q := by
  refine ⟨(h.numberAt_eq hm).trans hq, ?_⟩
  obtain ⟨c, t, hc, hbehind⟩ := h.behind_member hm
  rw [GsmMqttClient.behind_eq_some_iff (h.colonless m hm), h.copyMsg_eq] at hbehind
  exact ⟨_, hbehind, Json.numeral_denotes m.denotes hq hc t⟩

/-- No other key is found. -/
theorem behindColon_absent {key : CString} (hquote : '"' ∉ key) (hcolon : ':' ∉ key)
    (hkey : key ∉ ms.map Member.key) (rest : CString) :
    ¬ Text.BehindColon key (Json.objectText ms) rest := by
  revert rest
  rw [← h.copyMsg_eq, ← GsmMqttClient.behind_eq_none_iff hcolon, GsmMqttClient.behind, h.copyMsg_eq,
    objectText_fields, Text.strstr_objectText_none hquote hcolon h.clean fun f hf heq => ?_]
  obtain ⟨m, hm, rfl⟩ := List.mem_map.1 hf
  exact hkey (heq ▸ List.mem_map_of_mem hm)

end PlainMessage

end Waterbox
