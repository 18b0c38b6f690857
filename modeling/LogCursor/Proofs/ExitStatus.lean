import LogCursor.Planner.Command
import LogCursor.Proofs.SourceFaults
import LogCursor.Proofs.Stages
/-!
How the planning command ends. What its stages find wrong they mostly tell, in a line behind which the command
ends with exit code two. Three faults get past this (`Escapes`): the level of the log is neither text nor bytes
(`log_fault`), the cap is infinite (`source_fault`), or the budget is a list (`plan_fault`). What is planned can
always be printed, because its numbers are told beforehand or keep within those of the heads (`planned_text`).
So the command is left with exactly these faults, and in every other case it prints the plan or tells what is
wrong (`run_ends`).
-/
namespace LogCursor.ExitStatus
open LogCursor.Planner LogCursor.CheckpointText LogCursor.Stages
open LogCursor.CommandLine (Reading)
open SourceFaults (property capOfProperties properties_refused properties_leaks)
open Traversal (bind_error_iff)

/-! ### Numbers that have a text -/

private theorem int_writable {n : Int} (nonneg : 0 ≤ n) (writable : Writable n.toNat) :
    (Setting.int n).unwritable = false := by
  rw [Setting.unwritable_int, decide_eq_false_iff_not, overlong_iff, not_not]
  have same : n.natAbs = n.toNat := by omega
  rwa [same]

private theorem nat_writable {n : Nat} (writable : Writable n) : (Setting.int n).unwritable = false :=
  int_writable (Int.natCast_nonneg n) writable

private theorem list_writable {items : List Setting} (each : ∀ v ∈ items, v.unwritable = false) :
    (Setting.list items).unwritable = false := by
  rw [Setting.unwritable_list, List.any_eq_false]
  exact fun v member => by rw [each v member]; exact Bool.false_ne_true

private theorem range_writable {r : Range} (index : Writable r.partition.index) (stop : Writable r.stop) :
    (Plan.ofRange r).unwritable = false := by
  have start := nat_writable (writable_of_le stop r.start_le_stop)
  have count : (Setting.int r.count).unwritable = false := nat_writable (writable_of_le stop (Nat.sub_le _ _))
  rw [Plan.ofRange, Setting.unwritable_map]
  simp only [List.any_cons, List.any_nil, Key.unwritable, nat_writable index, start, nat_writable stop, count,
    Bool.or_false]

private theorem text_ok {p : Plan} (budget : (Setting.int p.budget).unwritable = false)
    (total : (Setting.int p.summary.total).unwritable = false)
    (ranges : ∀ r ∈ p.ranges, Writable r.partition.index ∧ Writable r.stop) :
    p.text = .ok (Json.page 0 p.toSetting) := by
  have listed : (Setting.list (p.ranges.map Plan.ofRange)).unwritable = false := by
    refine list_writable fun v member => ?_
    obtain ⟨r, inside, rfl⟩ := List.mem_map.mp member
    exact range_writable (ranges r inside).1 (ranges r inside).2
  have written : p.toSetting.unwritable = false := by
    rw [Plan.toSetting, Setting.unwritable_map]
    simp only [List.any_cons, List.any_nil, Key.unwritable, Setting.unwritable_text, Setting.unwritable_bool, budget,
      total, listed, Bool.or_false]
  simp [Plan.text, written]

/-! ### The log -/

/-- The level that arguments and settings ask for. -/
def level (r : Reading) (settings : Settings) : Setting :=
  flagOr (r.text? "--log-level") settings Settings.levelKey defaultLevel

/-- A value that is neither text nor bytes. -/
def Untextual (v : Setting) : Prop := (∀ name, v ≠ .text name) ∧ ∀ bs, v ≠ .bytes bs

variable {r : Reading} {settings : Settings} {v : Setting} {f : Fault}

private theorem untextual_of_int (int : v.typeName = "int") : Untextual v := by
  constructor
  · rintro name rfl
    simp [Setting.typeName] at int
  · rintro bs rfl
    simp [Setting.typeName] at int

private theorem threshold_untextual (untextual : Untextual v) :
    Log.threshold? v = .error (.lacking v.typeName "upper") := by
  cases v with
  | text name => exact absurd rfl (untextual.1 name)
  | bytes bs => exact absurd rfl (untextual.2 bs)
  | _ => rfl

private theorem threshold_fault (refused : Log.threshold? v = .error f) :
    isSetup f = true ∨ Untextual v ∧ f = .lacking v.typeName "upper" := by
  cases v with
  | text name =>
    unfold Log.threshold? at refused
    cases found : Assoc.get? (Text.capitals name) Log.thresholds with
    | some n => simp only [found] at refused; cases refused
    | none => simp only [found] at refused; cases refused; exact .inl rfl
  | bytes bs => cases refused; exact .inl rfl
  | _ => cases refused; exact .inr ⟨⟨nofun, nofun⟩, rfl⟩

private theorem form_fault (refused : Log.form? v = .error f) : isSetup f = true := by
  unfold Log.form? at refused
  split at refused
  · cases refused
  · cases refused
  · split at refused <;> (cases refused; rfl)

private theorem log_untextual (untextual : Untextual (level r settings)) :
    log r settings = .error (.lacking (level r settings).typeName "upper") := by
  show Log.make (level r settings) _ _ = _
  simp only [Log.make, threshold_untextual untextual]
  rfl

private theorem log_fault (refused : log r settings = .error f) :
    isSetup f = true ∨ Untextual (level r settings) ∧ f = .lacking (level r settings).typeName "upper" := by
  change Log.make (level r settings) _ _ = _ at refused
  unfold Log.make at refused
  cases first : Log.threshold? (level r settings) with
  | error e =>
    rw [first] at refused
    cases refused
    exact threshold_fault first
  | ok n =>
    cases second : Log.form? (flagOr (r.text? "--log-format") settings Settings.formatKey defaultForm) with
    | error e =>
      simp only [first, second] at refused
      cases refused
      exact .inl (form_fault second)
    | ok form => simp only [first, second] at refused; cases refused

/-! ### The source -/

/-- An infinite cap, in settings that are otherwise in order up to it. -/
structure Boundless (settings : Settings) : Prop where
  named : settings.get Source.topicKey .null ≠ .null
  written : (settings.get Source.topicKey .null).unwritable = false
  reset : ∃ edge, Reset.parse (settings.get Source.resetKey .null) = .ok edge
  infinite : ∃ negative, settings.get Source.capKey .null = .float (.infinite negative)

/-- A value, if it is not null. -/
def given? : Setting → Option Setting
  | .null => none
  | v => some v

/-- Values by path, apart from null. -/
def filed (get : String → Setting) (paths : List String) : Entries :=
  paths.filterMap fun path => (given? (get path)).map fun v => (.text path, v)

private theorem get?_filed (get : String → Setting) (paths : List String) (path : String) :
    Assoc.get? (Key.text path) (filed get paths) = if path ∈ paths then given? (get path) else none := by
  induction paths with
  | nil => rfl
  | cons first rest ih =>
    have same : (Key.text first == Key.text path) = (first == path) := Key.text_beq_text first path
    rw [filed, List.filterMap_cons]
    by_cases here : first = path
    · subst here
      cases found : given? (get first) with
      | none => simpa [filed, found] using ih
      | some v => simp [Assoc.get?_cons]
    · cases found : given? (get first) with
      | none => simpa [filed, found, Ne.symm here] using ih
      | some v => simpa [filed, Assoc.get?_cons, same, here, Ne.symm here] using ih

/-- The cap that settings give. -/
def capOf (settings : Settings) : Setting := (given? (settings.get Source.capKey .null)).getD (.int Source.defaultCap)

private theorem ofSettings_filed (settings : Settings) : Source.ofSettings settings =
    Source.ofProperties (filed (settings.get · .null) [Source.topicKey, Source.resetKey, Source.capKey]) := by
  refine congrArg Source.ofProperties (List.filterMap_congr fun path _ => ?_)
  show _ = (given? (settings.get path .null)).map fun v => (Key.text path, v)
  cases settings.get path .null <;> rfl

private theorem property_filed {paths : List String} {path : String} (listed : path ∈ paths) :
    property (filed (settings.get · .null) paths) path = settings.get path .null := by
  rw [property, get?_filed, if_pos listed]
  cases settings.get path .null <;> rfl

private theorem capOfProperties_filed {paths : List String} (listed : Source.capKey ∈ paths) :
    capOfProperties (filed (settings.get · .null) paths) = capOf settings := by
  rw [capOfProperties, get?_filed, if_pos listed, capOf]

private theorem permanent_of_configuration (kind : f.kind = .configuration) : isPermanent f = true := by
  rw [isPermanent, kind]
  rfl

/-- Settings of a source are refused with a fault that planning reports, or for an infinite cap. -/
theorem source_fault (refused : Source.ofSettings settings = .error f) :
    isPermanent f = true ∨ f = .infiniteCap ∧ Boundless settings := by
  rw [ofSettings_filed] at refused
  rcases properties_refused refused with kind | leaks
  · exact .inl (permanent_of_configuration kind)
  cases leaks with
  | topic => exact .inl rfl
  | reset => exact .inl rfl
  | low => exact .inl rfl
  | cap shown resets unread =>
    rw [property_filed (by simp)] at shown resets
    rw [capOfProperties_filed (by simp)] at unread
    cases unread with
    | unshown => exact .inl rfl
    | @infinite negative infinite =>
      -- The cap comes last, so the topic and the reset strategy are in order when it is infinite.
      refine .inr ⟨rfl, shown.1, shown.2, resets, negative, ?_⟩
      unfold capOf at infinite
      cases cap : settings.get Source.capKey .null <;> rw [cap] at infinite <;> cases infinite
      rfl

private theorem source_boundless (boundless : Boundless settings) : Source.ofSettings settings = .error .infiniteCap := by
  obtain ⟨named, written, resets, negative, infinite⟩ := boundless
  have cap : capOf settings = .float (.infinite negative) := by
    rw [capOf, infinite]
    rfl
  rw [ofSettings_filed]
  refine properties_leaks (.cap ?_ ?_ (.infinite ((capOfProperties_filed (by simp)).trans cap)))
  · rw [property_filed (by simp)]
    exact ⟨named, written⟩
  · rw [property_filed (by simp)]
    exact resets

/-! ### The plan -/

/-- A list for a budget, in a request that is otherwise in order up to it. -/
structure Listed (source : Source) (wanted : Request) : Prop where
  heads : ∃ m, offsets source.topic wanted.heads = .ok m
  earliest : ∃ m, offsets source.topic wanted.earliest = .ok m
  usable : Usable (some wanted.checkpoint) source.topic
  list : wanted.budget = .list

variable {source : Source} {wanted : Request} {m : OffsetMap}

private theorem permanent_of_unreadable (unreadable : CheckpointReading.Unreadable f) : isPermanent f = true := by
  rcases unreadable with format | ⟨count, rfl⟩
  · rw [isPermanent, format]
    rfl
  · rfl

private theorem offsets_fault {topic text : String} (refused : offsets topic text = .error f) : isPermanent f = true := by
  unfold offsets at refused
  split at refused
  · cases refused
  · exact permanent_of_unreadable (CheckpointReading.decode_fault refused)

private theorem offsets_fit {topic text : String} (read : offsets topic text = .ok m) : Fit m := by
  unfold offsets at read
  split at read
  · cases read
    exact fit_of_entries nofun
  · exact fit_of_read read

/-- The planner resumes from the checkpoints that a cycle can resume from. -/
theorem planner_resume_cases {checkpoint : String} (nonempty : checkpoint ≠ "") (title : Title) :
    (¬ Usable (some checkpoint) title.name ∧ ∃ e, resume title.name checkpoint = .error e ∧ isPermanent e = true) ∨
      (Usable (some checkpoint) title.name ∧ ∃ m, Fit m ∧ resume title.name checkpoint = .ok m) := by
  have agree := Agreement.resume_agree title checkpoint
  have given : (some checkpoint).getD "" ≠ "" := nonempty
  rcases resume_cases given title with ⟨e, refused, failed⟩ | ⟨m, reads, fit, resumed⟩
  · change Cycle.resume title checkpoint = .error e at failed
    rw [failed] at agree
    generalize resume title.name checkpoint = planned at agree
    cases agree with
    | refused unreadable =>
      exact .inl ⟨fun usable => not_refused_of_usable usable refused, _, rfl, permanent_of_unreadable unreadable⟩
  · change Cycle.resume title checkpoint = .ok m at resumed
    rw [resumed] at agree
    generalize resume title.name checkpoint = planned at agree
    cases agree with
    | related related => exact .inr ⟨⟨_, reads⟩, m, fit, related.1 ▸ rfl⟩

private theorem allocate_fault {starts heads : OffsetMap} {budget : Int}
    (refused : (Allocation.allocate starts heads budget).result = .error f) : isPermanent f = true := by
  rcases ExactAllocation.allocate_cases starts heads budget with same | overlong
  · rw [isPermanent, ExactAllocation.kind_of_compute (same.symm.trans refused)]
    rfl
  · rw [overlong] at refused
    cases refused
    rfl

private theorem summary_fault {rs : List Range} (refused : Summary.ofRanges rs = .error f) : isPermanent f = true := by
  rcases bind_error_iff.mp refused with failed | ⟨_, _, refused⟩
  · rw [isPermanent]
    rcases RoundTrip.encode_fault failed with kind | kind <;> rw [kind] <;> rfl
  · cases refused

/-- What is told about moves past what retention has dropped can be written. -/
theorem warnings_writable {m' : OffsetMap} (fit : Fit m) (fit' : Fit m') :
    ∀ n ∈ Advance.warnings m m', isUnwritable n = false := by
  intro n member
  obtain ⟨entry, entered, told⟩ := List.mem_filterMap.mp member
  obtain ⟨nonneg, writable⟩ := fit entry.1
  obtain ⟨nonneg', writable'⟩ := entry_fit fit' entered
  unfold Advance.told at told
  split at told
  · cases told
    have skipped : (Setting.int (entry.2 - m.offset entry.1)).unwritable = false :=
      int_writable (by omega) (writable_of_le writable' (by omega))
    simp only [isUnwritable, Notice.fields, Notice.skipped, List.any_cons, List.any_nil, Setting.unwritable_text,
      int_writable nonneg writable, int_writable nonneg' writable', skipped, Bool.or_false]
  · cases told

/-- The starts of a plan are found, with nothing told that cannot be written, unless the checkpoint is refused. -/
theorem planner_starts_cases {heads earliest : OffsetMap} (source : Source) (checkpoint : String) (fit : Fit heads)
    (named : ∀ p ∈ heads.partitions, Writable p.index) (fit' : Fit earliest) :
    (¬ Usable (some checkpoint) source.topic ∧
      ∃ e, (starts source checkpoint heads earliest).result = .error e ∧ isPermanent e = true) ∨
    (Usable (some checkpoint) source.topic ∧
      ∃ first, (starts source checkpoint heads earliest).result = .ok first ∧ Fit first ∧
        ∀ n ∈ (starts source checkpoint heads earliest).notices, isUnwritable n = false) := by
  have fitRetained : Fit (retained heads earliest) := fit_table fit' heads.nodup_partitions
  by_cases due : Reset.IsDue (some checkpoint)
  · have usable : Usable (some checkpoint) source.topic := ⟨none, due⟩
    simp only [starts, if_pos due]
    cases source.edge with
    | earliest => exact .inr ⟨usable, _, rfl, fitRetained, nofun⟩
    | latest => exact .inr ⟨usable, _, rfl, fit, nofun⟩
  · simp only [starts, if_neg due]
    rcases planner_resume_cases due source.title with ⟨unusable, e, refused, permanent⟩ | ⟨usable, m, fitted, resumed⟩
    · change resume source.topic checkpoint = .error e at refused
      rw [refused]
      exact .inl ⟨unusable, e, rfl, permanent⟩
    · change resume source.topic checkpoint = .ok m at resumed
      rw [resumed]
      have moved : Retention.advanceReported m (retained heads earliest) =
          ⟨Advance.warnings m (retained heads earliest), .ok (Advance.advance m (retained heads earliest))⟩ := by
        refine Advance.advanceReported_eq fun entry member untold => ?_
        obtain ⟨p, listed, _, overlong⟩ :=
          (Agreement.untold_table heads.nodup_partitions m earliest).mp ⟨entry, member, untold⟩
        exact not_overlong_iff.mpr (named p listed) overlong
      simp only [Outcome.ofExcept, Outcome.ok_bind, List.nil_append, moved]
      exact .inr ⟨usable, _, rfl, fit_advance fitted fitRetained, warnings_writable fitted fitRetained⟩

/-- A plan fails with a fault that planning reports, or for a list for a budget. -/
theorem plan_fault (refused : (plan source wanted).result = .error f) :
    isPermanent f = true ∨ f = .incomparable "list" "int" ∧ Listed source wanted := by
  rw [Agreement.planner_result] at refused
  rcases bind_error_iff.mp refused with failed | ⟨heads, readHeads, refused⟩
  · exact .inl (offsets_fault failed)
  rcases bind_error_iff.mp refused with failed | ⟨earliest, readEarliest, refused⟩
  · exact .inl (offsets_fault failed)
  rcases planner_starts_cases source wanted.checkpoint (offsets_fit readHeads)
      (Agreement.offsets_named readHeads) (offsets_fit readEarliest) with
    ⟨_, e, failed, permanent⟩ | ⟨usable, first, found, _, _⟩
  · rw [failed] at refused
    cases refused
    exact .inl permanent
  rw [found] at refused
  rcases bind_error_iff.mp refused with failed | ⟨first', _, refused⟩
  · cases failed
  rcases bind_error_iff.mp refused with failed | ⟨budget, _, refused⟩
  · cases list : wanted.budget <;> rw [list] at failed <;> cases failed
    exact .inr ⟨rfl, ⟨heads, readHeads⟩, ⟨earliest, readEarliest⟩, usable, list⟩
  rcases bind_error_iff.mp refused with failed | ⟨_, _, refused⟩
  · rcases bind_error_iff.mp failed with failed | ⟨rs, _, failed⟩
    · exact .inl (allocate_fault failed)
    · rcases bind_error_iff.mp failed with failed | ⟨_, _, failed⟩
      · exact .inl (summary_fault failed)
      · cases failed
  · cases refused

private theorem plan_listed (listed : Listed source wanted) : ∃ ns,
    plan source wanted = ⟨ns, .error (.incomparable "list" "int")⟩ ∧ ∀ n ∈ ns, isUnwritable n = false := by
  obtain ⟨⟨heads, readHeads⟩, ⟨earliest, readEarliest⟩, usable, list⟩ := listed
  rcases planner_starts_cases source wanted.checkpoint (offsets_fit readHeads)
      (Agreement.offsets_named readHeads) (offsets_fit readEarliest) with
    ⟨unusable, _⟩ | ⟨_, first, found, _, told⟩
  · exact absurd usable unusable
  · refine ⟨(starts source wanted.checkpoint heads earliest).notices, ?_, told⟩
    have started : starts source wanted.checkpoint heads earliest =
        ⟨(starts source wanted.checkpoint heads earliest).notices, .ok first⟩ := by rw [← found]
    unfold plan
    rw [readHeads, readEarliest]
    simp only [Outcome.ofExcept, Outcome.ok_bind, List.nil_append]
    rw [started, list]
    simp only [Outcome.ok_bind, Planner.budget, Outcome.error_bind, List.append_nil]

private theorem summary_total {rs : List Range} {summary : Summary} (summed : Summary.ofRanges rs = .ok summary) :
    summary.total = Range.total rs := by
  unfold Summary.ofRanges at summed
  cases encoded : Checkpoint.encode rs with
  | error e => rw [encoded] at summed; cases summed
  | ok text => rw [encoded] at summed; cases summed; rfl

private theorem outcome_bind_ok {α β : Type} {x : Outcome α} {g : α → Outcome β} {b : β} (ended : (x >>= g).result = .ok b) :
    ∃ a, x.result = .ok a ∧ (g a).result = .ok b ∧ (x >>= g).notices = x.notices ++ (g a).notices := by
  obtain ⟨ns, _ | a⟩ := x
  · cases ended
  · exact ⟨a, rfl, ended, rfl⟩

private theorem allocate_told {starts heads : OffsetMap} {budget : Int} {rs : List Range}
    (named : ∀ p ∈ heads.partitions, ¬ Numeral.Overlong p.index)
    (run : (Allocation.compute starts heads budget).result = .ok rs) :
    .allocated rs.length budget (Range.total rs) ∈ (Allocation.allocate starts heads budget).notices := by
  rw [ExactAllocation.allocate_eq named,
    ExactAllocation.compute_eq (ExactAllocation.accepted_of_compute run).1, Outcome.ok_bind,
    ← (ExactAllocation.accepted_of_compute run).2]
  simp

private theorem plan_told {p : Plan} (planned : (plan source wanted).result = .ok p) :
    (∀ r ∈ p.ranges, Writable r.partition.index ∧ Writable r.stop) ∧
      ∃ count, .allocated count p.budget p.summary.total ∈ (plan source wanted).notices := by
  obtain ⟨heads, readHeads, planned, told⟩ := outcome_bind_ok planned
  obtain ⟨earliest, _, planned, told₁⟩ := outcome_bind_ok planned
  obtain ⟨first, _, planned, told₂⟩ := outcome_bind_ok planned
  obtain ⟨budget, _, planned, told₃⟩ := outcome_bind_ok planned
  obtain ⟨rs, run, planned, told₄⟩ := outcome_bind_ok planned
  obtain ⟨summary, summed, planned, _⟩ := outcome_bind_ok planned
  cases planned
  have total := summary_total summed
  have named : ∀ p ∈ heads.partitions, ¬ Numeral.Overlong p.index := fun p member =>
    not_overlong_iff.mpr (Agreement.offsets_named readHeads p member)
  rw [ExactAllocation.allocate_result named] at run
  have allotted := ExactAllocation.allotted_of_compute run
  refine ⟨RoundTrip.short_of_allotted allotted (Agreement.offsets_short readHeads), rs.length, ?_⟩
  have allocated := allocate_told named run
  rw [← total] at allocated
  change _ ∈ (Outcome.ofExcept (offsets source.topic wanted.heads) >>= _).notices
  rw [told, told₁, told₂, told₃, told₄]
  simp only [List.mem_append]
  exact .inr (.inr (.inr (.inr (.inl allocated))))

/-! ### What is planned and reported -/

private theorem written_fault {x : Outcome Plan} (failed : (written x).result = .error f) :
    isPermanent f = true ∨ x.result = .error f := by
  unfold written at failed
  split at failed
  · cases failed
    exact .inl rfl
  · exact .inr failed

private theorem written_ok {x : Outcome Plan} {p : Plan} (ended : (written x).result = .ok p) :
    x.result = .ok p ∧ ∀ n ∈ x.notices, isUnwritable n = false := by
  unfold written at ended
  split at ended
  · cases ended
  · rename_i writable
    rw [List.any_eq_true, not_exists] at writable
    exact ⟨ended, fun n member => by simpa [member] using writable n⟩

private theorem written_eq {x : Outcome Plan} (writable : ∀ n ∈ x.notices, isUnwritable n = false) : written x = x := by
  have none : x.notices.any isUnwritable = false := by simpa using writable
  rw [written, none]
  rfl

private theorem planned_fault (failed : (planned r settings).result = .error f) :
    isPermanent f = true ∨ (f = .infiniteCap ∧ Boundless settings) ∨
      (f = .incomparable "list" "int" ∧ ∃ source, Source.ofSettings settings = .ok source ∧
        Listed source (request r)) := by
  rcases written_fault failed with permanent | failed
  · exact .inl permanent
  · rw [Outcome.result_bind] at failed
    rcases bind_error_iff.mp failed with refused | ⟨source, made, refused⟩
    · rcases source_fault refused with permanent | boundless
      · exact .inl permanent
      · exact .inr (.inl boundless)
    · rcases plan_fault refused with permanent | ⟨rfl, listed⟩
      · exact .inl permanent
      · exact .inr (.inr ⟨rfl, source, made, listed⟩)

private theorem planned_boundless (boundless : Boundless settings) :
    (planned r settings).result = .error .infiniteCap := by
  have failed : (Outcome.ofExcept (Source.ofSettings settings) >>= fun source => plan source (request r)) =
      ⟨[], .error .infiniteCap⟩ := by
    rw [source_boundless boundless]
    rfl
  rw [planned, failed, written_eq fun n member => by cases member]

private theorem planned_listed (made : Source.ofSettings settings = .ok source) (listed : Listed source (request r)) :
    (planned r settings).result = .error (.incomparable "list" "int") := by
  obtain ⟨ns, refused, writable⟩ := plan_listed listed
  have whole : (Outcome.ofExcept (Source.ofSettings settings) >>= fun source => plan source (request r)) =
      ⟨ns, .error (.incomparable "list" "int")⟩ := by
    rw [made]
    exact refused
  rw [planned, whole, written_eq writable]

private theorem planned_text {p : Plan} (ended : (planned r settings).result = .ok p) :
    p.text = .ok (Json.page 0 p.toSetting) := by
  obtain ⟨ended, writable⟩ := written_ok ended
  obtain ⟨source, _, done, told⟩ := outcome_bind_ok ended
  obtain ⟨short, count, allocated⟩ := plan_told done
  -- The budget and the total stand in a notice, which would have ended the plan if it could not be written.
  have clean := writable _ (told ▸ List.mem_append_right _ allocated)
  simp only [isUnwritable, Notice.fields, List.any_cons, List.any_nil, Bool.or_false, Bool.or_eq_false_iff] at clean
  exact text_ok clean.2.1 clean.2.2 short

/-- Faults that leave the command: the level of the log is neither text nor bytes, the cap is infinite, or the
    budget is a list, and nothing was found wrong before. -/
inductive Escapes (r : Reading) (settings : Settings) : Fault → Prop
  | level (untextual : Untextual (level r settings)) :
      Escapes r settings (.lacking (level r settings).typeName "upper")
  | cap {l : Log} (logged : log r settings = .ok l) (boundless : Boundless settings) :
      Escapes r settings .infiniteCap
  | budget {l : Log} {source : Source} (logged : log r settings = .ok l)
      (made : Source.ofSettings settings = .ok source) (listed : Listed source (request r)) :
      Escapes r settings (.incomparable "list" "int")

/-- The ways to end: the plan is printed, or a line tells what was found wrong with the settings, with the log or
    with what was asked for. -/
inductive Ended (s : Surroundings) (r : Reading) : Report → Prop
  | unset {f : Fault} (unset : (layers s r).settings = .error f) : Ended s r ⟨2, [], [Report.errorLine f]⟩
  | unlogged {settings : Settings} {f : Fault} (set : (layers s r).settings = .ok settings)
      (unlogged : log r settings = .error f) : Ended s r ⟨2, [], [Report.errorLine f]⟩
  | unplanned {settings : Settings} {f : Fault} {lines : List String} (set : (layers s r).settings = .ok settings)
      (unplanned : (planned r settings).result = .error f) : Ended s r ⟨2, [], lines ++ [Report.errorLine f]⟩
  | printed {settings : Settings} {p : Plan} {lines : List String} (set : (layers s r).settings = .ok settings)
      (planned : (planned r settings).result = .ok p) : Ended s r ⟨0, [Json.page 0 p.toSetting], lines⟩

variable {s : Surroundings} {arguments : List String} {l : Log}

private theorem run_of_unset (parsed : interface.parse arguments = .ok r) (unset : (layers s r).settings = .error f)
    (setup : isSetup f = true) : run s arguments = .ok ⟨2, [], [Report.errorLine f]⟩ := by
  simp only [run, parsed, unset, bind, Except.bind, setup, if_true]
  rfl

private theorem run_of_unlogged (parsed : interface.parse arguments = .ok r) (set : (layers s r).settings = .ok settings)
    (unlogged : log r settings = .error f) :
    run s arguments = if isSetup f then .ok ⟨2, [], [Report.errorLine f]⟩ else .error f := by
  simp only [run, parsed, set, unlogged, bind, Except.bind]
  rfl

private theorem run_of_logged (parsed : interface.parse arguments = .ok r) (set : (layers s r).settings = .ok settings)
    (logged : log r settings = .ok l) : run s arguments = report s l (planned r settings) := by
  simp only [run, parsed, set, logged, bind, Except.bind]
  rfl

/-- Once the log is set up, the plan is printed or its fault is told, unless the fault leaves the command. -/
theorem report_cases (s : Surroundings) (l : Log) (x : Outcome Plan) :
    (∃ p, x.result = .ok p ∧ ∀ text, p.text = .ok text → ∃ lines, report s l x = .ok ⟨0, [text], lines⟩) ∨
    (∃ f, x.result = .error f ∧ isPermanent f = true ∧
      ∃ lines, report s l x = .ok ⟨2, [], lines ++ [Report.errorLine f]⟩) ∨
    ∃ f, x.result = .error f ∧ isPermanent f = false ∧ report s l x = .error f := by
  cases ended : x.result with
  | ok p =>
    refine .inl ⟨p, rfl, fun text told => ⟨l.lines s.time (x.notices.map Notice.entry), ?_⟩⟩
    simp only [report, ended, told]
    rfl
  | error f =>
    cases permanent : isPermanent f with
    | true =>
      refine .inr (.inl ⟨f, rfl, permanent,
        l.lines s.time ((x.notices ++ [Notice.planningFailed f.message]).map Notice.entry), ?_⟩)
      simp only [report, ended, permanent]
      rfl
    | false =>
      refine .inr (.inr ⟨f, rfl, permanent, ?_⟩)
      simp only [report, ended, permanent]
      rfl

/-- A run ends with a report, or with a fault that leaves the command. -/
theorem run_cases (parsed : interface.parse arguments = .ok r)
    (loads : ∀ f, (layers s r).settings = .error f → isSetup f = true) :
    (∃ out, run s arguments = .ok out ∧ Ended s r out) ∨
      ∃ settings f, (layers s r).settings = .ok settings ∧ Escapes r settings f ∧ run s arguments = .error f := by
  cases set : (layers s r).settings with
  | error f => exact .inl ⟨_, run_of_unset parsed set (loads f set), .unset set⟩
  | ok settings =>
    cases logged : log r settings with
    | error f =>
      have ran := run_of_unlogged parsed set logged
      rcases log_fault logged with setup | ⟨untextual, rfl⟩
      · rw [if_pos setup] at ran
        exact .inl ⟨_, ran, .unlogged set logged⟩
      · exact .inr ⟨settings, _, rfl, .level untextual, ran⟩
    | ok l =>
      rw [run_of_logged parsed set logged]
      rcases report_cases s l (planned r settings) with ⟨p, ended, printed⟩ | ⟨f, failed, _, lines, told⟩ |
        ⟨f, failed, lasting, left⟩
      · obtain ⟨lines, told⟩ := printed _ (planned_text ended)
        exact .inl ⟨_, told, .printed set ended⟩
      · exact .inl ⟨_, told, .unplanned set failed⟩
      · refine .inr ⟨settings, f, rfl, ?_, left⟩
        rcases planned_fault failed with permanent | ⟨rfl, boundless⟩ | ⟨rfl, source, made, listed⟩
        · rw [lasting] at permanent
          cases permanent
        · exact .cap logged boundless
        · exact .budget logged made listed

/-- Nothing keeps such a fault in the command. -/
theorem run_escapes (parsed : interface.parse arguments = .ok r) (set : (layers s r).settings = .ok settings)
    (escapes : Escapes r settings f) : run s arguments = .error f := by
  have left : ∀ {l f}, log r settings = .ok l → (planned r settings).result = .error f → isPermanent f = false →
      run s arguments = .error f := by
    intro l f logged failed lasting
    rw [run_of_logged parsed set logged]
    simp only [report, failed, lasting]
    rfl
  cases escapes with
  | level untextual => exact run_of_unlogged parsed set (log_untextual untextual)
  | cap logged boundless => exact left logged (planned_boundless boundless) rfl
  | budget logged made listed => exact left logged (planned_listed made listed) rfl

/-- For arguments that can be read, and files that give settings or fail as setting up reports, a run leaves the
    command with exactly the faults that escape. In every other case it ends with the plan and exit code zero,
    or with a line that tells the fault and exit code two. Settings may be nested to any depth here; a limit to the
    depth of recursion is left out. -/
theorem run_ends (s : Surroundings) (arguments : List String) (r : Reading)
    (parsed : interface.parse arguments = .ok r)
    (loads : ∀ f, (layers s r).settings = .error f → isSetup f = true) :
    (∀ f, run s arguments = .error f ↔ ∃ settings, (layers s r).settings = .ok settings ∧ Escapes r settings f) ∧
    ((∀ settings f, (layers s r).settings = .ok settings → ¬ Escapes r settings f) →
      ∃ out, run s arguments = .ok out ∧ Ended s r out) := by
  constructor
  · intro f
    constructor
    · intro left
      rcases run_cases parsed loads with ⟨out, ended, _⟩ | ⟨settings, f', set, escapes, left'⟩
      · rw [ended] at left
        cases left
      · rw [left'] at left
        cases left
        exact ⟨settings, set, escapes⟩
    · rintro ⟨settings, set, escapes⟩
      exact run_escapes parsed set escapes
  · intro kept
    rcases run_cases parsed loads with ended | ⟨settings, f, set, escapes, _⟩
    · exact ended
    · exact absurd escapes (kept settings f set)

/-- One file of settings, and nothing else around. -/
def around (text : String) : Surroundings where
  content _ := .bytes text.toUTF8.toList
  bundled := none
  environment := []
  time := "2024-05-01T12:00:00Z"

private theorem read_and_set (s : Surroundings) (arguments : List String) (test : Reading → Settings → Bool)
    (passed : ((interface.parse arguments).toOption.bind fun r =>
      (layers s r).settings.toOption.map (test r)) = some true) :
    ∃ r settings, interface.parse arguments = .ok r ∧ (layers s r).settings = .ok settings ∧
      test r settings = true := by
  cases parsed : interface.parse arguments with
  | error stop =>
    rw [parsed] at passed
    cases passed
  | ok r =>
    rw [parsed] at passed
    change (layers s r).settings.toOption.map (test r) = some true at passed
    cases loaded : (layers s r).settings with
    | error f =>
      rw [loaded] at passed
      cases passed
    | ok settings =>
      rw [loaded] at passed
      exact ⟨r, settings, rfl, loaded, Option.some.inj passed⟩

/-- Settings for a source of clicks. -/
def furnished : Surroundings := around "source: {topic: clicks, max_events_per_cycle: 5}\n"

/-- What the next cycle reads of one partition. -/
def planning : List String := ["--config", "clicks.yaml", "plan", "--heads", "3:9", "--checkpoint=clicks,3:2"]

theorem run_ends_furnished : ∃ r, interface.parse planning = .ok r ∧
    (∀ f, (layers furnished r).settings = .error f → isSetup f = true) ∧
    ∃ out, run furnished planning = .ok out ∧ Ended furnished r out ∧ out.exit = 0 := by
  obtain ⟨r, settings, parsed, set, passed⟩ := read_and_set furnished planning
    (fun _ _ => (run furnished planning).toOption.map Report.exit = some 0) (by decide +kernel)
  have exits : (run furnished planning).toOption.map Report.exit = some 0 := of_decide_eq_true passed
  have loads : ∀ f, (layers furnished r).settings = .error f → isSetup f = true := by
    intro f failed
    rw [set] at failed
    cases failed
  obtain ⟨leaves, ends⟩ := run_ends furnished planning r parsed loads
  obtain ⟨out, ran, ended⟩ := ends fun settings f set escapes => by
    rw [(leaves f).mpr ⟨settings, set, escapes⟩] at exits
    cases exits
  rw [ran] at exits
  exact ⟨r, parsed, loads, out, ran, ended, Option.some.inj exits⟩

/-- A level for the log that is given by its number. -/
def numbered : Surroundings := around "logging: {level: 10}\n"

/-- Arguments that leave the level to the file. -/
def unleveled : List String := ["--config", "log.yaml", "plan", "--topic", "t", "--heads", "0:5"]

/-- The file can be read, and still a fault leaves the command. -/
theorem numbered_leaves : ∃ r settings f, interface.parse unleveled = .ok r ∧
    (layers numbered r).settings = .ok settings ∧ run numbered unleveled = .error f ∧
    f.message = "'int' object has no attribute 'upper'" := by
  obtain ⟨r, settings, parsed, set, passed⟩ := read_and_set numbered unleveled
    (fun r settings => (level r settings).typeName = "int") (by decide +kernel)
  have int : (level r settings).typeName = "int" := of_decide_eq_true passed
  have untextual : Untextual (level r settings) := untextual_of_int int
  have left := run_escapes parsed set (.level untextual)
  rw [int] at left
  exact ⟨r, settings, _, parsed, set, left, rfl⟩

end LogCursor.ExitStatus
