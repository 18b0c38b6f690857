import LogCursor.Proofs.Traversal
import LogCursor.Source
/-!
How a source is refused. A topic, a reset strategy and a cap are checked one after the other, and what is found
wrong is a fault of the configuration. A fault of another kind comes up in two ways (`Leaks`, `PropertyLeaks`): an
infinite cap is no whole number that could be refused, and a value that is to be shown may hold a number that has
no text. In every other case a source is made or the configuration is at fault (`source_classified`).
-/
namespace LogCursor.SourceFaults
open LogCursor.Source
open Traversal (bind_ok_iff bind_error_iff)

/-- A setting that names a topic. -/
def Titled (topic : Setting) : Prop := ∃ title, Title.ofSetting? topic = some title ∧ IsTopic title.name

/-- A setting that asks for a reset strategy. -/
def Resets (reset : Setting) : Prop := ∃ edge, Reset.parse reset = .ok edge

/-- A cap that is found to be no whole number, by another fault than that: it is infinite, or it cannot be shown. -/
inductive Unread (cap : Setting) : Fault → Prop
  | infinite {negative : Bool} (infinite : cap = .float (.infinite negative)) : Unread cap .infiniteCap
  | unshown (unwritable : cap.unwritable = true) (other : ∀ n, cap ≠ .int n) : Unread cap .overlongNumber

/-- A cap that is too small, and beyond the digits that could be shown. -/
def Sunken (cap : Setting) : Prop := ∃ n, whole cap = .ok n ∧ n < 1 ∧ Numeral.Overlong n

/-- Faults of another kind than the configuration, from separate settings. -/
inductive Leaks (topic reset cap : Setting) : Fault → Prop
  | reset (titled : Titled topic) (unwritable : reset.unwritable = true) : Leaks topic reset cap .overlongNumber
  | cap {f : Fault} (titled : Titled topic) (resets : Resets reset) (unread : Unread cap f) : Leaks topic reset cap f
  | low (titled : Titled topic) (resets : Resets reset) (sunken : Sunken cap) : Leaks topic reset cap .overlongNumber

/-- The value of a property, null where there is none. -/
def property (props : Entries) (path : String) : Setting := (Assoc.get? (Key.text path) props).getD .null

/-- The cap that properties set, or the default. -/
def capOfProperties (props : Entries) : Setting := (Assoc.get? (Key.text capKey) props).getD (.int defaultCap)

/-- A topic that is given and has a text. -/
def Shown (topic : Setting) : Prop := topic ≠ .null ∧ topic.unwritable = false

/-- Faults of another kind than the configuration, from properties; the form of the topic is looked at last. -/
inductive PropertyLeaks (props : Entries) : Fault → Prop
  | topic (given : property props topicKey ≠ .null) (unwritable : (property props topicKey).unwritable = true) :
      PropertyLeaks props .overlongNumber
  | reset (shown : Shown (property props topicKey)) (unwritable : (property props resetKey).unwritable = true) :
      PropertyLeaks props .overlongNumber
  | cap {f : Fault} (shown : Shown (property props topicKey)) (resets : Resets (property props resetKey))
      (unread : Unread (capOfProperties props) f) : PropertyLeaks props f
  | low (shown : Shown (property props topicKey)) (isTopic : IsTopic (property props topicKey).plain)
      (resets : Resets (property props resetKey)) (sunken : Sunken (capOfProperties props)) :
      PropertyLeaks props .overlongNumber

variable {topic reset cap v : Setting} {f : Fault} {s : Source} {edge : Edge} {n : Int}

private theorem parse_refused (refused : Reset.parse v = .error f) :
    f = .unknownReset v ∨ f = .overlongNumber ∧ v.unwritable = true := by
  unfold Reset.parse at refused
  split at refused
  · cases refused
  · cases refused
  · split at refused
    · rename_i unwritable
      cases refused
      exact .inr ⟨rfl, unwritable⟩
    · split at refused
      · cases refused
      · cases refused
        exact .inl rfl

private theorem parse_unwritable (unwritable : v.unwritable = true) : Reset.parse v = .error .overlongNumber := by
  unfold Reset.parse
  split
  · simp at unwritable
  · simp at unwritable
  · rw [if_pos unwritable]

private theorem whole_refused (refused : whole v = .error f) : f = .notWhole v ∨ Unread v f := by
  have shown : ∀ {f}, (∀ n, v ≠ .int n) → refuse v .notWhole = (.error f : Except Fault Int) →
      f = .notWhole v ∨ Unread v f := by
    intro f other refused
    unfold refuse at refused
    split at refused
    · rename_i unwritable
      cases refused
      exact .inr (.unshown unwritable other)
    · cases refused
      exact .inl rfl
  cases v with
  | int n => cases refused
  | float x =>
    cases x with
    | finite => cases refused
    | infinite negative =>
      cases refused
      exact .inr (.infinite rfl)
    | nan =>
      cases refused
      exact .inl rfl
  | text s =>
    simp only [whole] at refused
    cases found : Numeral.read s with
    | ok n => rw [found] at refused; cases refused
    | error d => rw [found] at refused; cases refused; exact .inl rfl
  | bytes bs =>
    simp only [whole] at refused
    cases found : wholeOfBytes? bs with
    | some n => rw [found] at refused; cases refused
    | none => rw [found] at refused; cases refused; exact .inl rfl
  | _ => exact shown nofun refused

private theorem whole_unread (unread : Unread cap f) : whole cap = .error f := by
  cases unread with
  | infinite infinite =>
    rw [infinite]
    rfl
  | unshown unwritable other =>
    have refused : refuse cap .notWhole = (.error .overlongNumber : Except Fault Int) := by
      rw [refuse, if_pos unwritable]
    cases cap with
    | int n => exact absurd rfl (other n)
    | float x => simp at unwritable
    | text s => simp at unwritable
    | bytes bs => simp at unwritable
    | _ => exact refused

private theorem capOf_ok_iff {c : { cap : Nat // 0 < cap }} : capOf n = .ok c ↔ n = c.1 := by
  unfold capOf
  split
  · rename_i large
    rw [Except.ok.injEq, Subtype.ext_iff]
    constructor
    · intro same
      show n = (c.1 : Nat)
      rw [← same]
      exact (Int.toNat_of_nonneg (by omega)).symm
    · rintro rfl
      rfl
  · rename_i small
    have positive := c.2
    constructor
    · nofun
    · intro same
      exact absurd same (by omega)

private theorem notPositive_worded (n : Int) :
    (Fault.notPositive n).worded = if Numeral.Overlong n then .overlongNumber else .notPositive n := by
  simp only [Fault.worded, Fault.numbers, List.any_cons, List.any_nil, Bool.or_false, decide_eq_true_eq]

private theorem capOf_refused (refused : capOf n = .error f) :
    f = .notPositive n ∨ f = .overlongNumber ∧ n < 1 ∧ Numeral.Overlong n := by
  unfold capOf at refused
  split at refused
  · cases refused
  · rename_i small
    rw [notPositive_worded] at refused
    split at refused
    · rename_i overlong
      cases refused
      exact .inr ⟨rfl, by omega, overlong⟩
    · cases refused
      exact .inl rfl

private theorem capOf_sunken (low : n < 1) (overlong : Numeral.Overlong n) : capOf n = .error .overlongNumber := by
  rw [capOf, dif_neg (by omega), notPositive_worded, if_pos overlong]

private theorem make_cases (topic reset cap : Setting) :
    (¬ Titled topic ∧ ∃ f, make topic reset cap = .error f ∧ f.kind = .configuration) ∨
      ∃ title, Title.ofSetting? topic = some title ∧ ∃ isTopic : IsTopic title.name, make topic reset cap = (do
        let edge ← Reset.parse reset
        let n ← whole cap
        let c ← capOf n
        return ⟨title, edge, c.1, isTopic, c.2⟩) := by
  unfold make
  cases named : Title.ofSetting? topic with
  | none =>
    refine .inl ⟨?_, _, rfl, rfl⟩
    rintro ⟨title, same, _⟩
    rw [named] at same
    cases same
  | some title =>
    have unique : ∀ title', Title.ofSetting? topic = some title' → title' = title := by
      intro title' same
      rw [named] at same
      exact (Option.some.inj same).symm
    by_cases blank : Text.IsBlankText title.name
    · refine .inl ⟨?_, .missingTopic, by simp only [dif_pos blank], rfl⟩
      rintro ⟨title', same, isTopic⟩
      exact isTopic.1 (unique title' (named ▸ same) ▸ blank)
    · by_cases nameable : Checkpoint.Nameable title.name
      · exact .inr ⟨title, rfl, ⟨blank, nameable⟩, by simp only [dif_neg blank, dif_pos nameable]⟩
      · refine .inl ⟨?_, .separatorInTopic title.name, by simp only [dif_neg blank, dif_neg nameable], rfl⟩
        rintro ⟨title', same, isTopic⟩
        exact nameable (unique title' (named ▸ same) ▸ isTopic.2)

/-- A source is made of a title, an end and a cap that were all found. -/
theorem make_ok_iff : make topic reset cap = .ok s ↔
    Title.ofSetting? topic = some s.title ∧ Reset.parse reset = .ok s.edge ∧ whole cap = .ok (s.cap : Int) := by
  rcases make_cases topic reset cap with ⟨untitled, f, refused, _⟩ | ⟨title, named, isTopic, run⟩
  · rw [refused]
    exact ⟨nofun, fun ⟨named, _⟩ => absurd ⟨_, named, s.isTopic⟩ untitled⟩
  · rw [run, named]
    constructor
    · intro made
      obtain ⟨edge, parsed, made⟩ := bind_ok_iff.mp made
      obtain ⟨n, read, made⟩ := bind_ok_iff.mp made
      obtain ⟨c, capped, made⟩ := bind_ok_iff.mp made
      cases made
      exact ⟨rfl, parsed, capOf_ok_iff.mp capped ▸ read⟩
    · rintro ⟨same, parsed, read⟩
      cases Option.some.inj same
      refine bind_ok_iff.mpr ⟨_, parsed, bind_ok_iff.mpr ⟨_, read, bind_ok_iff.mpr ⟨⟨s.cap, s.cap_pos⟩, ?_, rfl⟩⟩⟩
      exact capOf_ok_iff.mpr rfl

private theorem make_refused (refused : make topic reset cap = .error f) :
    f.kind = .configuration ∨ Leaks topic reset cap f := by
  rcases make_cases topic reset cap with ⟨_, f', refused', kind⟩ | ⟨title, named, isTopic, run⟩
  · rw [refused'] at refused
    cases refused
    exact .inl kind
  · have titled : Titled topic := ⟨title, named, isTopic⟩
    rw [run] at refused
    rcases bind_error_iff.mp refused with failed | ⟨edge, parsed, refused⟩
    · rcases parse_refused failed with rfl | ⟨rfl, unwritable⟩
      · exact .inl rfl
      · exact .inr (.reset titled unwritable)
    rcases bind_error_iff.mp refused with failed | ⟨n, read, refused⟩
    · rcases whole_refused failed with rfl | unread
      · exact .inl rfl
      · exact .inr (.cap titled ⟨edge, parsed⟩ unread)
    rcases bind_error_iff.mp refused with failed | ⟨c, _, refused⟩
    · rcases capOf_refused failed with rfl | ⟨rfl, low, overlong⟩
      · exact .inl rfl
      · exact .inr (.low titled ⟨edge, parsed⟩ ⟨n, read, low, overlong⟩)
    · cases refused

private theorem make_leaks (leaks : Leaks topic reset cap f) : make topic reset cap = .error f := by
  have opened : ∀ {f}, Titled topic → (∀ title (isTopic : IsTopic title.name), (do
        let edge ← Reset.parse reset
        let n ← whole cap
        let c ← capOf n
        return (⟨title, edge, c.1, isTopic, c.2⟩ : Source)) = .error f) → make topic reset cap = .error f := by
    intro f titled failed
    rcases make_cases topic reset cap with ⟨untitled, _⟩ | ⟨title, _, isTopic, run⟩
    · exact absurd titled untitled
    · rw [run, failed]
  cases leaks with
  | reset titled unwritable =>
    refine opened titled fun _ _ => ?_
    rw [parse_unwritable unwritable]
    rfl
  | cap titled resets unread =>
    obtain ⟨edge, parsed⟩ := resets
    refine opened titled fun _ _ => ?_
    rw [parsed, whole_unread unread]
    rfl
  | low titled resets sunken =>
    obtain ⟨edge, parsed⟩ := resets
    obtain ⟨n, read, low, overlong⟩ := sunken
    refine opened titled fun _ _ => ?_
    rw [parsed, read]
    simp only [bind, Except.bind, capOf_sunken low overlong]

variable {props : Entries}

private theorem properties_untitled (absent : property props topicKey = .null) :
    ofProperties props = .error .missingTopic := by
  change (Assoc.get? (Key.text topicKey) props).getD .null = .null at absent
  simp only [ofProperties, absent]
  rfl

private theorem properties_given (given : property props topicKey ≠ .null) : ofProperties props =
    if (property props topicKey).unwritable then .error .overlongNumber
    else (do
      let edge ← Reset.parse (property props resetKey)
      let n ← whole (capOfProperties props)
      make (.text (property props topicKey).plain) (.edge edge) (.int n)) := by
  have named : ((Assoc.get? (Key.text topicKey) props).getD .null) = property props topicKey := rfl
  simp only [ofProperties, named]
  split <;> rfl

/-- Of a text, an end and a number only the number can be at fault in another way than the configuration. -/
theorem leaks_read {topic : String} (leaks : Leaks (.text topic) (.edge edge) (.int n) f) :
    f = .overlongNumber ∧ IsTopic topic ∧ Sunken (.int n) := by
  have named : Titled (.text topic) → IsTopic topic := by
    rintro ⟨title, same, isTopic⟩
    cases same
    exact isTopic
  cases leaks with
  | reset _ unwritable => simp at unwritable
  | cap _ _ unread =>
    cases unread with
    | infinite infinite => cases infinite
    | unshown _ other => exact absurd rfl (other n)
  | low titled _ sunken => exact ⟨rfl, named titled, sunken⟩

private theorem properties_ok_iff : ofProperties props = .ok s ↔ Shown (property props topicKey) ∧
    s.title = .text (property props topicKey).plain ∧ Reset.parse (property props resetKey) = .ok s.edge ∧
    whole (capOfProperties props) = .ok (s.cap : Int) := by
  by_cases absent : property props topicKey = .null
  · rw [properties_untitled absent]
    exact ⟨nofun, fun ⟨shown, _⟩ => absurd absent shown.1⟩
  · rw [properties_given absent]
    by_cases unwritable : (property props topicKey).unwritable = true
    · rw [if_pos unwritable]
      exact ⟨nofun, fun ⟨shown, _⟩ => by rw [shown.2] at unwritable; cases unwritable⟩
    · have shown : Shown (property props topicKey) := ⟨absent, by simpa using unwritable⟩
      rw [if_neg unwritable]
      constructor
      · intro made
        obtain ⟨edge, parsed, made⟩ := bind_ok_iff.mp made
        obtain ⟨n, read, made⟩ := bind_ok_iff.mp made
        obtain ⟨named, ended, capped⟩ := make_ok_iff.mp made
        cases ended
        cases capped
        exact ⟨shown, (Option.some.inj named).symm, parsed, read⟩
      · rintro ⟨_, named, parsed, read⟩
        refine bind_ok_iff.mpr ⟨_, parsed, bind_ok_iff.mpr ⟨_, read, make_ok_iff.mpr ⟨?_, rfl, rfl⟩⟩⟩
        exact congrArg some named.symm

theorem properties_refused (refused : ofProperties props = .error f) :
    f.kind = .configuration ∨ PropertyLeaks props f := by
  by_cases absent : property props topicKey = .null
  · rw [properties_untitled absent] at refused
    cases refused
    exact .inl rfl
  · rw [properties_given absent] at refused
    split at refused
    · rename_i unwritable
      cases refused
      exact .inr (.topic absent unwritable)
    · rename_i writable
      have shown : Shown (property props topicKey) := ⟨absent, by simpa using writable⟩
      rcases bind_error_iff.mp refused with failed | ⟨edge, parsed, refused⟩
      · rcases parse_refused failed with rfl | ⟨rfl, unwritable⟩
        · exact .inl rfl
        · exact .inr (.reset shown unwritable)
      rcases bind_error_iff.mp refused with failed | ⟨n, read, refused⟩
      · rcases whole_refused failed with rfl | unread
        · exact .inl rfl
        · exact .inr (.cap shown ⟨edge, parsed⟩ unread)
      rcases make_refused refused with kind | leaks
      · exact .inl kind
      · obtain ⟨rfl, isTopic, m, same, low, overlong⟩ := leaks_read leaks
        cases same
        exact .inr (.low shown isTopic ⟨edge, parsed⟩ ⟨n, read, low, overlong⟩)

theorem properties_leaks (leaks : PropertyLeaks props f) : ofProperties props = .error f := by
  have opened : ∀ {f}, Shown (property props topicKey) → (do
        let edge ← Reset.parse (property props resetKey)
        let n ← whole (capOfProperties props)
        make (.text (property props topicKey).plain) (.edge edge) (.int n)) = .error f →
      ofProperties props = .error f := by
    intro f shown failed
    rw [properties_given shown.1, shown.2]
    exact failed
  cases leaks with
  | topic given unwritable => rw [properties_given given, if_pos unwritable]
  | reset shown unwritable =>
    refine opened shown ?_
    rw [parse_unwritable unwritable]
    rfl
  | cap shown resets unread =>
    obtain ⟨edge, parsed⟩ := resets
    refine opened shown ?_
    rw [parsed, whole_unread unread]
    rfl
  | low shown isTopic resets sunken =>
    obtain ⟨edge, parsed⟩ := resets
    obtain ⟨n, read, low, overlong⟩ := sunken
    refine opened shown ?_
    rw [parsed, read]
    have sunken : Sunken (.int n) := ⟨n, rfl, low, overlong⟩
    have titled : Titled (.text (property props topicKey).plain) := ⟨_, rfl, isTopic⟩
    have asked : Resets (.edge edge) := ⟨edge, rfl⟩
    exact make_leaks (.low titled asked sunken)

/-- Separate settings make a source of the topic that they name, the end that they ask for and the cap that they
    give, if all of these are found. Otherwise the configuration is at fault, unless a fault leaks; and what leaks
    is no fault of the configuration. Properties are taken in the same way, with the topic by its text, to any
    depth: a limit to the depth of recursion, which the text of a deep value could pass, is left out. -/
theorem source_classified (topic reset cap : Setting) (props : Entries) :
    ((∀ s, make topic reset cap = .ok s ↔
        Title.ofSetting? topic = some s.title ∧ Reset.parse reset = .ok s.edge ∧ whole cap = .ok (s.cap : Int)) ∧
      (∀ f, make topic reset cap = .error f → f.kind = .configuration ∨ Leaks topic reset cap f) ∧
      ∀ f, Leaks topic reset cap f → make topic reset cap = .error f ∧ f.kind ≠ .configuration) ∧
    (∀ s, ofProperties props = .ok s ↔ Shown (property props topicKey) ∧
        s.title = .text (property props topicKey).plain ∧ Reset.parse (property props resetKey) = .ok s.edge ∧
        whole (capOfProperties props) = .ok (s.cap : Int)) ∧
    (∀ f, ofProperties props = .error f → f.kind = .configuration ∨ PropertyLeaks props f) ∧
    ∀ f, PropertyLeaks props f → ofProperties props = .error f ∧ f.kind ≠ .configuration := by
  have unread : ∀ {cap f}, Unread cap f → f.kind ≠ .configuration := by
    rintro cap f (_ | _) <;> nofun
  refine ⟨⟨fun s => make_ok_iff, fun f => make_refused, fun f leaks => ?_⟩,
    fun s => properties_ok_iff, fun f => properties_refused, fun f leaks => ?_⟩
  · refine ⟨make_leaks leaks, ?_⟩
    cases leaks with
    | reset => nofun
    | cap _ _ found => exact unread found
    | low => nofun
  · refine ⟨properties_leaks leaks, ?_⟩
    cases leaks with
    | topic => nofun
    | reset => nofun
    | cap _ _ found => exact unread found
    | low => nofun

/-- An infinite cap is no fault of the configuration, whether it stands alone or among properties; nor is a list
    with a number of too many digits. -/
theorem endless_leaks :
    make (.text "clicks") .null (.float (.infinite false)) = .error .infiniteCap ∧
    ofProperties [(.text topicKey, .text "clicks"), (.text capKey, .float (.infinite true))] = .error .infiniteCap ∧
    Fault.infiniteCap.kind = .overflow ∧
    make (.text "clicks") .null (.list [.int (Nat.pow 10 4300)]) = .error .overlongNumber ∧
    Fault.overlongNumber.kind = .value := by
  have titled : Titled (.text "clicks") := ⟨_, rfl, by decide⟩
  have resets : Resets .null := ⟨_, rfl⟩
  have named : property [(.text topicKey, .text "clicks"), (.text capKey, .float (.infinite true))] topicKey =
      .text "clicks" := rfl
  have unshown : (Setting.list [.int (Nat.pow 10 4300)]).unwritable = true := by
    have overlong : Numeral.Overlong (Nat.pow 10 4300) := by decide +kernel
    rw [Setting.unwritable_list, List.any_cons, Setting.unwritable_int, decide_eq_true overlong, Bool.true_or]
  refine ⟨make_leaks (.cap titled resets (.infinite rfl)), properties_leaks (.cap ?_ resets (.infinite rfl)), rfl,
    make_leaks (.cap titled resets (.unshown unshown nofun)), rfl⟩
  rw [named]
  exact ⟨nofun, by simp⟩

end LogCursor.SourceFaults
