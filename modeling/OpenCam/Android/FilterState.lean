import OpenCam.Android.Streamer
import OpenCam.Bytes.Text
import OpenCam.Interaction.Machine

/-!
The filters of `Streamer.kt`: what the options say is active and what the GL
interface renders, over any interleaving of the receiver thread's calls with
the main thread's tasks.
-/

namespace OpenCam.Android

open Octets Jvm FilterRepository Interaction

namespace StreamOptions

variable (options : StreamOptions)

/-- The filters that an activation hands to the GL interface. -/
def started : List BaseFilterRender :=
  options.activeEffectFilter.toList ++ options.activeCorrectionFilters

def flips : List BaseFilterRender := options.vFlipFilter.toList ++ options.hFlipFilter.toList

/-- The filters that are active as far as the options know. -/
def filters : List BaseFilterRender := options.started ++ options.flips

def ids : List Nat := options.filters.map BaseFilterRender.id

def correctionClasses : List FilterClass :=
  options.activeCorrectionFilters.map BaseFilterRender.filterClass

end StreamOptions

namespace Streamer

/-- What happens: an activation message is decoded and started, another command
is called, or the main thread takes its next task. -/
inductive Action where
  | activation (message : Bytes)
  | command (call : StreamerCall)
  | task

variable (environment : Environment)

/-- Nothing comes of a rejected activation, of an ignored command and of an
empty queue; a crash has no next state. -/
def step (streamer : Streamer) : Action → Option Streamer
  | .activation message =>
      match StreamOptions.deserialize environment.newInstance streamer.fresh message with
      | .ok newOptions => some (streamer.startStream newOptions)
      | .error _ => none
  | .command (.startStream _) => none
  | .command call => streamer.call environment call
  | .task =>
      match streamer.tasks with
      | [] => none
      | task :: tasks => { streamer with tasks := tasks }.runTask environment task

/-- The GL interface renders exactly the active filters, each once, and no two
correction filters are of one class. -/
structure FiltersMatch (streamer : Streamer) : Prop where
  rendered : streamer.glInterface.Perm streamer.options.ids
  once : streamer.options.ids.Nodup
  classes : streamer.options.correctionClasses.Nodup

/-- The condition on a task. -/
def TaskKeepsFilters (streamer : Streamer) : Task → Prop
  | .startStream newOptions =>
      ∀ filter ∈ (streamer.objects newOptions).started, filter.id ∉ streamer.glInterface
  | .addCorrectionFilter (some filter) _ =>
      filter.filterClass ∉ streamer.options.correctionClasses
  | .applyEffectFilter category filterName =>
      category ≠ .none → create environment.newInstance filterName = none →
        streamer.options.activeEffectFilter = none
  | _ => True

/-- The steps that keep the two in agreement: an activation finds no filter
active and names no correction twice; it is applied before any of its own
filters is rendered; a correction is added when its class is not active; and an
effect that cannot be created does not replace another. -/
def KeepsFilters (streamer : Streamer) : Action → Prop
  | .activation message => streamer.options.filters = [] ∧
      ∀ newOptions, StreamOptions.deserialize environment.newInstance streamer.fresh message =
        .ok newOptions → newOptions.correctionClasses.Nodup
  | .command _ => True
  | .task => ∀ task ∈ streamer.tasks.head?, TaskKeepsFilters environment streamer task

/-- The streamer from its creation on. -/
def machine : Machine Streamer Action := .ofStep .initial (step environment)

section Invariant

/-- The filter that a task is going to add. -/
def promised : Task → List Nat
  | .addCorrectionFilter (some filter) _ => [filter.id]
  | _ => []

/-- Between two steps. While the task of the current activation is waiting, the
filters of its message need not be rendered yet. -/
structure FilterInvariant (streamer : Streamer) : Prop where
  distinct : (streamer.options.ids ++ streamer.tasks.flatMap promised).Nodup
  used : ∀ id ∈ streamer.options.ids ++ streamer.tasks.flatMap promised, id < streamer.fresh
  rendered : streamer.glInterface.Nodup
  sound : ∀ id ∈ streamer.glInterface, id ∈ streamer.options.ids
  flips : ∀ filter ∈ streamer.options.flips, filter.id ∈ streamer.glInterface
  complete : .startStream streamer.current ∉ streamer.tasks →
    ∀ id ∈ streamer.options.ids, id ∈ streamer.glInterface
  stale : ∀ ref, .startStream ref ∈ streamer.tasks → ref ≠ streamer.current →
    (streamer.objects ref).started = []
  current_allocated : streamer.current < streamer.allocated
  task_allocated : ∀ ref, .startStream ref ∈ streamer.tasks → ref < streamer.allocated
  classes : streamer.options.correctionClasses.Nodup

theorem FilterInvariant.filtersMatch {streamer : Streamer} (h : FilterInvariant streamer)
    (hdone : streamer.tasks = []) : FiltersMatch streamer where
  rendered := by
    have hids : streamer.options.ids.Nodup := (List.nodup_append.mp h.distinct).1
    rw [List.perm_ext_iff_of_nodup h.rendered hids]
    exact fun id => ⟨h.sound id, h.complete (by simp [hdone]) id⟩
  once := (List.nodup_append.mp h.distinct).1
  classes := h.classes

/-- A step that changes the current options only. -/
structure Edits (streamer next : Streamer) : Prop where
  current : next.current = streamer.current
  allocated : next.allocated = streamer.allocated
  objects : ∀ ref, ref ≠ streamer.current → next.objects ref = streamer.objects ref
  tasks : ∀ ref, .startStream ref ∈ next.tasks ↔ .startStream ref ∈ streamer.tasks

theorem FilterInvariant.edit {streamer next : Streamer} (h : FilterInvariant streamer)
    (hedits : Edits streamer next)
    (hdistinct : (next.options.ids ++ next.tasks.flatMap promised).Nodup)
    (hused : ∀ id ∈ next.options.ids ++ next.tasks.flatMap promised, id < next.fresh)
    (hrendered : next.glInterface.Nodup)
    (hsound : ∀ id ∈ next.glInterface, id ∈ next.options.ids)
    (hflips : ∀ filter ∈ next.options.flips, filter.id ∈ next.glInterface)
    (hcomplete : (∀ id ∈ streamer.options.ids, id ∈ streamer.glInterface) →
      ∀ id ∈ next.options.ids, id ∈ next.glInterface)
    (hclasses : next.options.correctionClasses.Nodup) : FilterInvariant next where
  distinct := hdistinct
  used := hused
  rendered := hrendered
  sound := hsound
  flips := hflips
  complete := by
    intro hwaiting
    rw [hedits.tasks, hedits.current] at hwaiting
    exact hcomplete (h.complete hwaiting)
  stale := by
    intro ref htask hother
    rw [hedits.tasks] at htask
    rw [hedits.current] at hother
    rw [hedits.objects ref hother]
    exact h.stale ref htask hother
  current_allocated := by
    rw [hedits.current, hedits.allocated]
    exact h.current_allocated
  task_allocated := by
    intro ref htask
    rw [hedits.tasks] at htask
    rw [hedits.allocated]
    exact h.task_allocated ref htask
  classes := hclasses

/-- A step that leaves the identities of all filters as they are. -/
theorem FilterInvariant.unchanged {streamer next : Streamer} (h : FilterInvariant streamer)
    (hedits : Edits streamer next) (hids : next.options.ids = streamer.options.ids)
    (hflips : next.options.flips = streamer.options.flips)
    (hclasses : next.options.correctionClasses = streamer.options.correctionClasses)
    (hrendered : next.glInterface = streamer.glInterface)
    (hpromised : next.tasks.flatMap promised = streamer.tasks.flatMap promised)
    (hfresh : streamer.fresh ≤ next.fresh) : FilterInvariant next := by
  refine h.edit hedits ?_ ?_ ?_ ?_ ?_ ?_ ?_
  · rw [hids, hpromised]
    exact h.distinct
  · rw [hids, hpromised]
    exact fun id hid => (h.used id hid).trans_le hfresh
  · rw [hrendered]
    exact h.rendered
  · rw [hrendered, hids]
    exact h.sound
  · rw [hrendered, hflips]
    exact h.flips
  · rw [hrendered, hids]
    exact id
  · rw [hclasses]
    exact h.classes

end Invariant

section Updates

variable (streamer : Streamer) (change : StreamOptions → StreamOptions)

@[simp]
theorem update_options : (streamer.update change).options = change streamer.options :=
  Function.update_self ..

@[simp]
theorem update_current : (streamer.update change).current = streamer.current := rfl

@[simp]
theorem update_tasks : (streamer.update change).tasks = streamer.tasks := rfl

@[simp]
theorem update_glInterface : (streamer.update change).glInterface = streamer.glInterface := rfl

@[simp]
theorem update_fresh : (streamer.update change).fresh = streamer.fresh := rfl

theorem taken_update : (streamer.update change).taken = streamer.taken.update change := rfl

theorem taken_addFilter (id : Nat) :
    (streamer.addFilter id).taken = streamer.taken.addFilter id := rfl

theorem addFilter_update (id : Nat) :
    (streamer.update change).addFilter id = (streamer.addFilter id).update change := rfl

theorem update_update (change' : StreamOptions → StreamOptions) :
    (streamer.update change).update change' = streamer.update (change' ∘ change) := by
  unfold Streamer.update
  simp only [Streamer.options, Function.update_self, Function.update_idem, Function.comp_apply]

theorem edits_update : Edits streamer (streamer.update change) where
  current := rfl
  allocated := rfl
  objects := fun _ hother => Function.update_of_ne hother ..
  tasks := fun _ => Iff.rfl

end Updates

section Commands

variable {environment} {streamer next : Streamer}

theorem FilterInvariant.update (h : FilterInvariant streamer)
    {change : StreamOptions → StreamOptions}
    (hids : (change streamer.options).ids = streamer.options.ids)
    (hflips : (change streamer.options).flips = streamer.options.flips)
    (hclasses : (change streamer.options).correctionClasses = streamer.options.correctionClasses) :
    FilterInvariant (streamer.update change) :=
  h.unchanged (edits_update streamer change) (by rwa [update_options])
    (by rwa [update_options]) (by rwa [update_options]) rfl rfl le_rfl

theorem FilterInvariant.command (h : FilterInvariant streamer) (command : CameraCommand) :
    FilterInvariant (streamer.command command) :=
  h.unchanged ⟨rfl, rfl, fun _ _ => rfl, fun _ => Iff.rfl⟩ rfl rfl rfl rfl rfl le_rfl

theorem FilterInvariant.taken (h : FilterInvariant streamer) : FilterInvariant streamer.taken :=
  h.unchanged ⟨rfl, rfl, fun _ _ => rfl, fun _ => Iff.rfl⟩ rfl rfl rfl rfl rfl (Nat.le_succ _)

/-- A task is posted that neither starts a stream nor brings a new filter. -/
theorem FilterInvariant.post (h : FilterInvariant streamer) {task : Task}
    (hstart : ∀ ref, task ≠ .startStream ref) (hpromised : promised task = []) :
    FilterInvariant (streamer.post task) := by
  refine h.unchanged ⟨rfl, rfl, fun _ _ => rfl, ?_⟩ rfl rfl rfl rfl ?_ le_rfl
  · intro ref
    have hother : Task.startStream ref ≠ task := (hstart ref).symm
    simp [Streamer.post, hother]
  · simp [Streamer.post, hpromised]

/-- A correction filter is created for a task to add. -/
theorem FilterInvariant.promise (h : FilterInvariant streamer) (filterClass : FilterClass)
    (value : Int) :
    FilterInvariant (streamer.taken.post
      (.addCorrectionFilter (some ⟨streamer.fresh, filterClass, none⟩) value)) := by
  have htasks : (streamer.taken.post (.addCorrectionFilter
      (some ⟨streamer.fresh, filterClass, none⟩) value)).tasks.flatMap promised =
      streamer.tasks.flatMap promised ++ [streamer.fresh] := by
    simp [Streamer.post, Streamer.taken, promised]
  have hnew : streamer.fresh ∉ streamer.options.ids ++ streamer.tasks.flatMap promised :=
    fun hmem => lt_irrefl _ (h.used _ hmem)
  refine h.edit ⟨rfl, rfl, fun _ _ => rfl, ?_⟩ ?_ ?_ h.rendered h.sound h.flips (fun hall => hall)
    h.classes
  · simp [Streamer.post, Streamer.taken]
  · rw [htasks, ← List.append_assoc, List.nodup_append]
    refine ⟨h.distinct, List.nodup_singleton _, ?_⟩
    intro id hid other hother
    rw [List.mem_singleton] at hother
    subst hother
    exact fun hsame => hnew (hsame ▸ hid)
  · rw [htasks, ← List.append_assoc]
    intro id hid
    rcases List.mem_append.mp hid with hid | hid
    · exact Nat.lt_succ_of_lt (h.used id hid)
    · rw [List.mem_singleton] at hid
      subst hid
      exact Nat.lt_succ_self streamer.fresh

theorem adjust_id (filter : BaseFilterRender) (value : Int) :
    (FilterAdjuster.adjust filter value).id = filter.id := by
  rw [FilterAdjuster.adjust]
  split <;> rfl

theorem adjust_filterClass (filter : BaseFilterRender) (value : Int) :
    (FilterAdjuster.adjust filter value).filterClass = filter.filterClass := by
  rw [FilterAdjuster.adjust]
  split <;> rfl

/-- Adjusting one filter of a list changes neither identities nor classes. -/
theorem map_adjusted {α : Type} (filters : List BaseFilterRender) (chosen : Nat) (value : Int)
    {part : BaseFilterRender → α}
    (hpart : ∀ filter, part (FilterAdjuster.adjust filter value) = part filter) :
    (filters.map fun filter =>
      if filter.id = chosen then FilterAdjuster.adjust filter value else filter).map part =
    filters.map part := by
  rw [List.map_map]
  refine List.map_congr_left fun filter _ => ?_
  rw [Function.comp_apply]
  split
  · exact hpart filter
  · rfl

/-- No command but an activation changes which filters are active before its
tasks run. -/
theorem FilterInvariant.call {call : StreamerCall} (h : FilterInvariant streamer)
    (hstart : ∀ newOptions, call ≠ .startStream newOptions)
    (hcall : streamer.call environment call = some next) : FilterInvariant next := by
  cases call with
  | startStream newOptions => exact absurd rfl (hstart newOptions)
  | switchCamera =>
      obtain rfl := Option.some.inj hcall
      rw [Streamer.switchCamera]
      split
      · exact (h.command _).update rfl rfl rfl
      · exact h.command _
  | setResolution width height =>
      simp only [Streamer.call, Option.ite_none_left_eq_some] at hcall
      obtain ⟨-, hcall⟩ := hcall
      split at hcall
      · exact Option.some.inj hcall ▸ h
      · obtain rfl := Option.some.inj hcall
        exact (h.update rfl rfl rfl).post (by simp) rfl
  | rotate degrees =>
      simp only [Streamer.call, Option.ite_none_left_eq_some] at hcall
      obtain rfl := Option.some.inj hcall.2
      exact (h.update rfl rfl rfl).command _
  | applyEffectFilter filterName =>
      simp only [Streamer.call, Option.ite_none_left_eq_some] at hcall
      obtain rfl := Option.some.inj hcall.2
      exact h.post (by simp) rfl
  | applyCorrectionFilter filterName value =>
      simp only [Streamer.call] at hcall
      split at hcall
      · simp at hcall
      · rw [Option.ite_none_left_eq_some] at hcall
        obtain ⟨-, hcall⟩ := hcall
        split at hcall
        · obtain rfl := Option.some.inj hcall
          refine h.update ?_ rfl ?_
          · simp only [StreamOptions.ids, StreamOptions.filters, StreamOptions.started,
              StreamOptions.flips, List.map_append]
            rw [map_adjusted _ _ _ fun filter => adjust_id filter value]
          · exact map_adjusted _ _ _ fun filter => adjust_filterClass filter value
        · obtain rfl := Option.some.inj hcall
          cases hcreate : create environment.newInstance filterName with
          | none => exact h.taken.post (by simp) rfl
          | some filterClass => exact h.promise filterClass value
  | setFps fps =>
      simp only [Streamer.call, Option.ite_none_left_eq_some] at hcall
      obtain ⟨-, hcall⟩ := hcall
      split at hcall
      · exact Option.some.inj hcall ▸ h
      · obtain rfl := Option.some.inj hcall
        exact (h.update rfl rfl rfl).post (by simp) rfl
  | setZoom zoom =>
      simp only [Streamer.call, Option.ite_none_left_eq_some] at hcall
      obtain rfl := Option.some.inj hcall.2
      exact h.command _
  | flip axis =>
      obtain rfl := Option.some.inj hcall
      exact h.post (by simp) rfl
  | setBitrate bitrate =>
      simp only [Streamer.call, Option.ite_none_left_eq_some] at hcall
      obtain rfl := Option.some.inj hcall.2
      exact (h.update rfl rfl rfl).command _
  | setAdaptiveBitrate min max =>
      simp only [Streamer.call, Option.ite_none_left_eq_some] at hcall
      obtain rfl := Option.some.inj hcall.2
      exact ((h.update rfl rfl rfl).command _).command _
  | setStabilization enabled =>
      obtain rfl := Option.some.inj hcall
      exact h.command _
  | setFlash enabled =>
      obtain rfl := Option.some.inj hcall
      exact h.command _
  | setFocus mode =>
      simp only [Streamer.call] at hcall
      split at hcall
      · exact Option.some.inj hcall ▸ h.command _
      · split at hcall
        · exact Option.some.inj hcall ▸ h.command _
        · simp at hcall
  | setH265Codec enabled =>
      obtain rfl := Option.some.inj hcall
      split
      · exact (h.command _).post (by simp) rfl
      · exact h.command _

end Commands

section Tasks

variable {environment} {streamer next : Streamer}

/-- The main thread takes a task that does not start a stream. -/
theorem FilterInvariant.pop (h : FilterInvariant streamer) {task : Task} {tasks : List Task}
    (htasks : streamer.tasks = task :: tasks) (hstart : ∀ ref, task ≠ .startStream ref) :
    FilterInvariant { streamer with tasks := tasks } := by
  have hsublist : (streamer.options.ids ++ tasks.flatMap promised).Sublist
      (streamer.options.ids ++ streamer.tasks.flatMap promised) := by
    rw [htasks, List.flatMap_cons]
    exact (List.Sublist.refl _).append (List.sublist_append_right _ _)
  refine h.edit ⟨rfl, rfl, fun _ _ => rfl, ?_⟩ (h.distinct.sublist hsublist)
    (fun id hid => h.used id (hsublist.subset hid)) h.rendered h.sound h.flips (fun hall => hall)
    h.classes
  intro ref
  have hother : Task.startStream ref ≠ task := (hstart ref).symm
  simp [htasks, hother]

/-- A new filter becomes active and is rendered. -/
theorem FilterInvariant.added (h : FilterInvariant streamer) {id : Nat}
    {change : StreamOptions → StreamOptions}
    (hids : (change streamer.options).ids.Perm (id :: streamer.options.ids))
    (hnew : id ∉ streamer.options.ids ++ streamer.tasks.flatMap promised)
    (hused : id < streamer.fresh)
    (hflips : ∀ filter ∈ (change streamer.options).flips,
      filter ∈ streamer.options.flips ∨ filter.id = id)
    (hclasses : (change streamer.options).correctionClasses.Nodup) :
    FilterInvariant ((streamer.addFilter id).update change) := by
  have hmem : ∀ other, other ∈ (change streamer.options).ids ↔
      other = id ∨ other ∈ streamer.options.ids := by
    intro other
    rw [hids.mem_iff, List.mem_cons]
  have hall : ((change streamer.options).ids ++ streamer.tasks.flatMap promised).Perm
      (id :: (streamer.options.ids ++ streamer.tasks.flatMap promised)) := hids.append_right _
  have hunrendered : id ∉ streamer.glInterface := fun hrendered =>
    hnew (List.mem_append_left _ (h.sound id hrendered))
  have hoptions : ((streamer.addFilter id).update change).options = change streamer.options :=
    update_options ..
  refine h.edit ⟨rfl, rfl, (edits_update streamer change).objects, fun _ => Iff.rfl⟩ ?_ ?_ ?_ ?_ ?_ ?_ ?_
  · rw [hoptions]
    exact hall.nodup_iff.mpr (List.nodup_cons.mpr ⟨hnew, h.distinct⟩)
  · rw [hoptions]
    intro other hother
    rcases List.mem_cons.mp (hall.subset hother) with rfl | hold
    · exact hused
    · exact h.used other hold
  · exact h.rendered.append (List.nodup_singleton id)
      (List.disjoint_singleton.mpr hunrendered)
  · rw [hoptions]
    intro other hother
    rw [hmem]
    rcases List.mem_append.mp hother with hold | hsame
    · exact .inr (h.sound other hold)
    · exact .inl (List.mem_singleton.mp hsame)
  · rw [hoptions]
    intro filter hfilter
    rcases hflips filter hfilter with hold | hsame
    · exact List.mem_append_left _ (h.flips filter hold)
    · exact List.mem_append_right _ (List.mem_singleton.mpr hsame)
  · rw [hoptions]
    intro hcomplete other hother
    rcases (hmem other).mp hother with rfl | hold
    · exact List.mem_append_right _ (List.mem_singleton_self _)
    · exact List.mem_append_left _ (hcomplete other hold)
  · rwa [hoptions]

/-- An active filter is dropped, and rendered no longer. -/
theorem FilterInvariant.removed (h : FilterInvariant streamer) {id : Nat}
    {change : StreamOptions → StreamOptions}
    (hids : streamer.options.ids.Perm (id :: (change streamer.options).ids))
    (hflips : ∀ filter ∈ (change streamer.options).flips, filter ∈ streamer.options.flips)
    (hclasses : (change streamer.options).correctionClasses.Nodup) :
    FilterInvariant ((streamer.removeFilter id).update change) := by
  have hall : (streamer.options.ids ++ streamer.tasks.flatMap promised).Perm
      (id :: ((change streamer.options).ids ++ streamer.tasks.flatMap promised)) :=
    hids.append_right _
  obtain ⟨hgone, hdistinct⟩ := List.nodup_cons.mp (hall.nodup_iff.mp h.distinct)
  have hkept : ∀ other ∈ (change streamer.options).ids, other ≠ id := by
    rintro other hother rfl
    exact hgone (List.mem_append_left _ hother)
  have hrendered : ∀ other, other ∈ streamer.glInterface.erase id ↔
      other ≠ id ∧ other ∈ streamer.glInterface := fun other => h.rendered.mem_erase_iff
  have hoptions : ((streamer.removeFilter id).update change).options = change streamer.options :=
    update_options ..
  refine h.edit ⟨rfl, rfl, (edits_update streamer change).objects, fun _ => Iff.rfl⟩ ?_ ?_ ?_ ?_ ?_ ?_ ?_
  · rw [hoptions]
    exact hdistinct
  · rw [hoptions]
    exact fun other hother => h.used other (hall.symm.subset (List.mem_cons_of_mem _ hother))
  · exact h.rendered.erase id
  · rw [hoptions]
    intro other hother
    obtain ⟨hne, hold⟩ := (hrendered other).mp hother
    exact (List.mem_cons.mp (hids.subset (h.sound other hold))).resolve_left hne
  · rw [hoptions]
    intro filter hfilter
    have hactive : filter.id ∈ (change streamer.options).ids :=
      List.mem_map_of_mem (List.mem_append_right _ hfilter)
    exact (hrendered filter.id).mpr ⟨hkept filter.id hactive, h.flips filter (hflips filter hfilter)⟩
  · rw [hoptions]
    intro hcomplete other hother
    exact (hrendered other).mpr ⟨hkept other hother,
      hcomplete other (hids.symm.subset (List.mem_cons_of_mem _ hother))⟩
  · rwa [hoptions]

theorem FilterInvariant.fresh_unused (h : FilterInvariant streamer) :
    streamer.fresh ∉ streamer.options.ids ++ streamer.tasks.flatMap promised :=
  fun hmem => lt_irrefl _ (h.used _ hmem)

theorem FilterInvariant.effectAdded (h : FilterInvariant streamer)
    (hnone : streamer.options.activeEffectFilter = none) (filterClass : FilterClass) :
    FilterInvariant ((streamer.addFilter streamer.fresh).update fun options =>
      { options with activeEffectFilter := some ⟨streamer.fresh, filterClass, none⟩ }).taken := by
  rw [taken_update, taken_addFilter]
  refine h.taken.added ?_ h.fresh_unused (Nat.lt_succ_self _) (fun _ hfilter => .inl hfilter)
    h.classes
  have hbefore : streamer.taken.options.activeEffectFilter = none := hnone
  simp [StreamOptions.ids, StreamOptions.filters, StreamOptions.started, StreamOptions.flips,
    hbefore]

theorem FilterInvariant.effectRemoved (h : FilterInvariant streamer) {filter : BaseFilterRender}
    (hsome : streamer.options.activeEffectFilter = some filter) :
    FilterInvariant ((streamer.removeFilter filter.id).update fun options =>
      { options with activeEffectFilter := none }) := by
  refine h.removed ?_ (fun _ hfilter => hfilter) h.classes
  simp [StreamOptions.ids, StreamOptions.filters, StreamOptions.started, StreamOptions.flips, hsome]

/-- The task of `applyEffectFilter`. An effect that cannot be created leaves the
one before it active and rendered no longer. -/
theorem FilterInvariant.replaceEffect (h : FilterInvariant streamer) {category : Category}
    {filterName : JString}
    (hcreate : category ≠ .none → create environment.newInstance filterName = none →
      streamer.options.activeEffectFilter = none) :
    FilterInvariant (streamer.replaceEffect environment category filterName) := by
  unfold Streamer.replaceEffect
  cases heffect : streamer.options.activeEffectFilter with
  | none =>
      dsimp only
      split
      · split
        · exact h.effectAdded heffect _
        · exact h
      · refine h.update ?_ rfl rfl
        simp [StreamOptions.ids, StreamOptions.filters, StreamOptions.started, StreamOptions.flips,
          heffect]
  | some filter =>
      have hremoved := h.effectRemoved heffect
      dsimp only
      split
      · next hcategory =>
          split
          · next filterClass hclass =>
              have hadded := hremoved.effectAdded (by rw [update_options]) filterClass
              rwa [addFilter_update, update_update] at hadded
          · next hclass =>
              rw [hcreate hcategory hclass] at heffect
              cases heffect
      · exact hremoved

theorem FilterInvariant.toggle (h : FilterInvariant streamer) (filterClass : FilterClass)
    {current : Option BaseFilterRender}
    {assign : Option BaseFilterRender → StreamOptions → StreamOptions}
    (hcurrent : assign current streamer.options = streamer.options)
    (hids : ∀ filter, (assign (some filter) streamer.options).ids.Perm
      (filter.id :: (assign none streamer.options).ids))
    (hflips : ∀ filter, ∀ other ∈ (assign filter streamer.options).flips,
      other ∈ (assign none streamer.options).flips ∨ filter = some other)
    (hkept : ∀ filter, ∀ other ∈ (assign none streamer.options).flips,
      other ∈ (assign filter streamer.options).flips)
    (hclasses : ∀ filter, (assign filter streamer.options).correctionClasses =
      streamer.options.correctionClasses) :
    FilterInvariant (streamer.toggleFilter filterClass current assign) := by
  unfold Streamer.toggleFilter
  cases current with
  | some filter =>
      refine h.removed ?_ ?_ ?_
      · have hperm := hids filter
        rwa [hcurrent] at hperm
      · have hflip := hkept (some filter)
        rwa [hcurrent] at hflip
      · rw [hclasses]
        exact h.classes
  | none =>
      rw [taken_update, taken_addFilter]
      refine h.taken.added ?_ h.fresh_unused (Nat.lt_succ_self _) ?_ ?_
      · have hperm := hids ⟨streamer.fresh, filterClass, none⟩
        rwa [hcurrent] at hperm
      · intro filter hfilter
        rcases hflips _ filter hfilter with hold | hsame
        · rw [hcurrent] at hold
          exact .inl hold
        · exact .inr (by rw [← Option.some.inj hsame])
      · exact (hclasses _).symm ▸ h.classes

theorem FilterInvariant.correctionAdded (h : FilterInvariant streamer) {filter : BaseFilterRender}
    (hnew : filter.id ∉ streamer.options.ids ++ streamer.tasks.flatMap promised)
    (hused : filter.id < streamer.fresh)
    (hclass : filter.filterClass ∉ streamer.options.correctionClasses) (value : Int) :
    FilterInvariant ((streamer.update fun options =>
      { options with activeCorrectionFilters :=
          options.activeCorrectionFilters ++ [FilterAdjuster.adjust filter value] }).addFilter
        filter.id) := by
  rw [addFilter_update]
  refine h.added ?_ hnew hused (fun _ hfilter => .inl hfilter) ?_
  · simp only [StreamOptions.ids, StreamOptions.filters, StreamOptions.started,
      StreamOptions.flips, List.map_append, List.map_cons, List.map_nil, adjust_id,
      List.append_assoc]
    exact (List.Perm.append_left _ List.perm_middle).trans List.perm_middle
  · rw [StreamOptions.correctionClasses, List.map_append, List.map_singleton, adjust_filterClass]
    exact List.Nodup.append h.classes (List.nodup_singleton _) (List.disjoint_singleton.mpr hclass)

theorem FilterInvariant.startStreamInternal (h : FilterInvariant streamer) :
    FilterInvariant (streamer.startStreamInternal environment) := by
  unfold Streamer.startStreamInternal
  split
  · exact h
  · split
    · exact (h.command .startStream).unchanged ⟨rfl, rfl, fun _ _ => rfl, fun _ => Iff.rfl⟩
        rfl rfl rfl rfl rfl le_rfl
    · exact h.command _

/-- What an activation's task leaves in the GL interface. -/
theorem applied_glInterface (streamer : Streamer) (options : StreamOptions) :
    (streamer.applyOptionsToStream options).glInterface =
      streamer.glInterface ++ options.started.map BaseFilterRender.id := by
  simp [applyOptionsToStream, StreamOptions.started]

theorem started_tasks {ref : Nat} {tasks : List Task}
    (htasks : streamer.tasks = .startStream ref :: tasks) :
    tasks.flatMap promised = streamer.tasks.flatMap promised ∧
      ∀ task ∈ tasks, task ∈ streamer.tasks := by
  rw [htasks]
  exact ⟨rfl, fun _ htask => List.mem_cons_of_mem _ htask⟩

/-- The task of an activation that another has overtaken finds no filter in its
options. -/
theorem FilterInvariant.overtaken (h : FilterInvariant streamer) {ref : Nat} {tasks : List Task}
    (htasks : streamer.tasks = .startStream ref :: tasks) (hother : ref ≠ streamer.current) :
    FilterInvariant ({ streamer with tasks := tasks }.applyOptionsToStream
      (streamer.objects ref)) := by
  have hnothing : (streamer.objects ref).started = [] :=
    h.stale ref (by simp [htasks]) hother
  have hrendered : ({ streamer with tasks := tasks }.applyOptionsToStream
      (streamer.objects ref)).glInterface = streamer.glInterface := by
    rw [applied_glInterface, hnothing, List.map_nil, List.append_nil]
  obtain ⟨hpromised, hwaiting⟩ := started_tasks htasks
  exact {
    distinct := hpromised ▸ h.distinct
    used := hpromised ▸ h.used
    rendered := by
      rw [hrendered]
      exact h.rendered
    sound := by
      rw [hrendered]
      exact h.sound
    flips := by
      rw [hrendered]
      exact h.flips
    complete := by
      rw [hrendered]
      intro hstarted
      refine h.complete fun htask => ?_
      rw [htasks, List.mem_cons] at htask
      rcases htask with hhead | hlater
      · exact hother (Task.startStream.inj hhead).symm
      · exact hstarted hlater
    stale := fun other htask => h.stale other (hwaiting _ htask)
    current_allocated := h.current_allocated
    task_allocated := fun other htask => h.task_allocated other (hwaiting _ htask)
    classes := h.classes }

/-- The task of the current activation: its filters are rendered from now on. -/
theorem FilterInvariant.applied (h : FilterInvariant streamer) {tasks : List Task}
    (htasks : streamer.tasks = .startStream streamer.current :: tasks)
    (hunrendered : ∀ filter ∈ streamer.options.started, filter.id ∉ streamer.glInterface) :
    FilterInvariant ({ streamer with tasks := tasks }.applyOptionsToStream streamer.options) := by
  have hids : streamer.options.ids = streamer.options.started.map BaseFilterRender.id ++
      streamer.options.flips.map BaseFilterRender.id := List.map_append
  obtain ⟨hpromised, hwaiting⟩ := started_tasks htasks
  have hstarted : (streamer.options.started.map BaseFilterRender.id).Nodup := by
    have hactive := (List.nodup_append.mp h.distinct).1
    rw [hids] at hactive
    exact (List.nodup_append.mp hactive).1
  have hdisjoint : streamer.glInterface.Disjoint
      (streamer.options.started.map BaseFilterRender.id) := by
    intro id hrendered hstart
    obtain ⟨filter, hfilter, rfl⟩ := List.mem_map.mp hstart
    exact hunrendered filter hfilter hrendered
  exact {
    distinct := hpromised ▸ h.distinct
    used := hpromised ▸ h.used
    rendered := by
      rw [applied_glInterface]
      exact h.rendered.append hstarted hdisjoint
    sound := by
      rw [applied_glInterface]
      intro id hid
      rcases List.mem_append.mp hid with hold | hstart
      · exact h.sound id hold
      · exact hids ▸ List.mem_append_left _ hstart
    flips := by
      rw [applied_glInterface]
      exact fun filter hfilter => List.mem_append_left _ (h.flips filter hfilter)
    complete := by
      rw [applied_glInterface]
      intro _ id hid
      rcases List.mem_append.mp (hids ▸ hid) with hstart | hflip
      · exact List.mem_append_right _ hstart
      · obtain ⟨filter, hfilter, rfl⟩ := List.mem_map.mp hflip
        exact List.mem_append_left _ (h.flips filter hfilter)
    stale := fun other htask => h.stale other (hwaiting _ htask)
    current_allocated := h.current_allocated
    task_allocated := fun other htask => h.task_allocated other (hwaiting _ htask)
    classes := h.classes }

theorem FilterInvariant.restarted (h : FilterInvariant streamer) :
    FilterInvariant { streamer.command .stopStream with isStreaming := false } :=
  (h.command .stopStream).unchanged ⟨rfl, rfl, fun _ _ => rfl, fun _ => Iff.rfl⟩
    rfl rfl rfl rfl rfl le_rfl

/-- A flip filter is added where there is none and removed where there is one. -/
theorem FilterInvariant.flip (h : FilterInvariant streamer) {axis : FlipAxis}
    (hrun : streamer.runTask environment (.flip axis) = some next) : FilterInvariant next := by
  cases axis with
  | horizontal =>
      obtain rfl := Option.some.inj hrun
      refine h.toggle _ rfl ?_ ?_ ?_ (fun _ => rfl)
      · intro filter
        simp only [StreamOptions.ids, StreamOptions.filters, StreamOptions.started,
          StreamOptions.flips, List.map_append, Option.toList_some, Option.toList_none,
          List.map_cons, List.map_nil, List.append_nil, ← List.append_assoc]
        exact List.perm_append_singleton filter.id _
      · simp [StreamOptions.flips]
      · simp +contextual [StreamOptions.flips]
  | vertical =>
      obtain rfl := Option.some.inj hrun
      refine h.toggle _ rfl ?_ ?_ ?_ (fun _ => rfl)
      · intro filter
        simp only [StreamOptions.ids, StreamOptions.filters, StreamOptions.started,
          StreamOptions.flips, List.map_append, Option.toList_some, Option.toList_none,
          List.map_cons, List.nil_append, List.singleton_append]
        exact List.perm_middle
      · simp [StreamOptions.flips, or_comm]
      · simp +contextual [StreamOptions.flips]

theorem FilterInvariant.runTask (h : FilterInvariant streamer) {task : Task} {tasks : List Task}
    (htasks : streamer.tasks = task :: tasks) (hkeeps : TaskKeepsFilters environment streamer task)
    (hrun : { streamer with tasks := tasks }.runTask environment task = some next) :
    FilterInvariant next := by
  cases task with
  | startStream ref =>
      obtain rfl := Option.some.inj hrun
      by_cases hcurrent : ref = streamer.current
      · subst hcurrent
        exact (h.applied htasks hkeeps).startStreamInternal
      · exact (h.overtaken htasks hcurrent).startStreamInternal
  | restartStream =>
      have hstopped := (h.pop htasks (by simp)).restarted
      obtain rfl := Option.some.inj hrun
      split
      · exact hstopped.startStreamInternal
      · exact hstopped
  | applyEffectFilter category filterName =>
      obtain rfl := Option.some.inj hrun
      exact (h.pop htasks (by simp)).replaceEffect hkeeps
  | addCorrectionFilter filter value =>
      cases filter with
      | none => cases hrun
      | some filter =>
          obtain rfl := Option.some.inj hrun
          have hdistinct := h.distinct
          rw [htasks, List.flatMap_cons, promised, List.singleton_append] at hdistinct
          have hnew : filter.id ∉ streamer.options.ids ++ tasks.flatMap promised :=
            (List.nodup_cons.mp (List.perm_middle.nodup_iff.mp hdistinct)).1
          have hused : filter.id < streamer.fresh := by
            refine h.used filter.id (List.mem_append_right _ ?_)
            rw [htasks]
            exact List.mem_cons_self
          exact (h.pop htasks (by simp)).correctionAdded hnew hused hkeeps value
  | flip axis => exact (h.pop htasks (by simp)).flip hrun

end Tasks

section Runs

variable {environment} {streamer next : Streamer}

/-- A decoded activation brings filters of its own, none of them a flip. -/
theorem deserialize_ids {fresh : Nat} {message : Bytes} {newOptions : StreamOptions}
    (h : StreamOptions.deserialize environment.newInstance fresh message = .ok newOptions) :
    newOptions.flips = [] ∧ newOptions.ids.Nodup ∧ ∀ id ∈ newOptions.ids,
      fresh ≤ id ∧ id < fresh + newOptions.activeCorrectionFilters.length + 1 := by
  obtain ⟨activation, effect, rfl⟩ : ∃ activation effect,
      newOptions = StreamOptions.optionsOf fresh activation effect := by
    unfold StreamOptions.deserialize at h
    split at h
    · cases h
    · split at h
      · cases h
      · split at h
        · cases h
        · exact ⟨_, _, (Except.ok.inj h).symm⟩
  have hcorrections : (StreamOptions.optionsOf fresh activation effect).activeCorrectionFilters.map
      BaseFilterRender.id = List.range' fresh activation.filters.length := by
    rw [StreamOptions.optionsOf, List.map_map, ← List.zipIdx_map_snd]
    exact List.map_congr_left fun filter _ => adjust_id _ _
  have hcount : (StreamOptions.optionsOf fresh activation effect).activeCorrectionFilters.length =
      activation.filters.length := by
    simp [StreamOptions.optionsOf]
  have hids : (StreamOptions.optionsOf fresh activation effect).ids =
      (effect.map fun _ => fresh + activation.filters.length).toList ++
        List.range' fresh activation.filters.length := by
    rw [← hcorrections]
    cases effect <;> simp [StreamOptions.ids, StreamOptions.filters, StreamOptions.started,
      StreamOptions.flips, StreamOptions.optionsOf]
  refine ⟨rfl, ?_, ?_⟩
  · rw [hids]
    cases effect with
    | none => exact List.nodup_range'
    | some filterClass =>
        refine List.nodup_cons.mpr ⟨fun hmem => ?_, List.nodup_range'⟩
        have := (List.mem_range'_1.mp hmem).2
        exact absurd this (lt_irrefl _)
  · rw [hids, hcount]
    intro id hid
    cases effect with
    | none =>
        have := List.mem_range'_1.mp hid
        omega
    | some filterClass =>
        rcases List.mem_cons.mp hid with rfl | hid
        · exact ⟨Nat.le_add_right _ _, Nat.lt_succ_self _⟩
        · have := List.mem_range'_1.mp hid
          omega

/-- An activation while no filter is active. -/
theorem FilterInvariant.startStream (h : FilterInvariant streamer)
    (hnothing : streamer.options.filters = []) {newOptions : StreamOptions}
    (hflips : newOptions.flips = []) (hdistinct : newOptions.ids.Nodup)
    (hids : ∀ id ∈ newOptions.ids, streamer.fresh ≤ id ∧
      id < streamer.fresh + newOptions.activeCorrectionFilters.length + 1)
    (hclasses : newOptions.correctionClasses.Nodup) :
    FilterInvariant (streamer.startStream newOptions) := by
  have hoptions : (streamer.startStream newOptions).options = newOptions :=
    Function.update_self ..
  have htasks : (streamer.startStream newOptions).tasks =
      streamer.tasks ++ [.startStream streamer.allocated] := rfl
  have hpromised : (streamer.startStream newOptions).tasks.flatMap promised =
      streamer.tasks.flatMap promised := by
    rw [htasks, List.flatMap_append]
    exact List.append_nil _
  have hidle : streamer.glInterface = [] := by
    refine List.eq_nil_iff_forall_not_mem.mpr fun id hrendered => ?_
    have hactive := h.sound id hrendered
    simp [StreamOptions.ids, hnothing] at hactive
  have hused : ∀ id ∈ streamer.tasks.flatMap promised, id < streamer.fresh :=
    fun id hid => h.used id (List.mem_append_right _ hid)
  exact {
    distinct := by
      rw [hoptions, hpromised]
      refine hdistinct.append (List.nodup_append.mp h.distinct).2.1 fun id hnew hold => ?_
      exact absurd (hused id hold) (Nat.not_lt.mpr (hids id hnew).1)
    used := by
      rw [hoptions, hpromised]
      intro id hid
      show id < streamer.fresh + newOptions.activeCorrectionFilters.length + 1
      rcases List.mem_append.mp hid with hnew | hold
      · exact (hids id hnew).2
      · have := hused id hold
        omega
    rendered := h.rendered
    sound := by
      show ∀ id ∈ streamer.glInterface, _
      rw [hidle]
      simp
    flips := by
      rw [hoptions, hflips]
      simp
    complete := by
      intro hwaiting
      exact absurd (htasks ▸ List.mem_append_right _ (List.mem_singleton_self _)) hwaiting
    stale := by
      intro ref htask hother
      have hold : .startStream ref ∈ streamer.tasks := by
        rw [htasks, List.mem_append, List.mem_singleton] at htask
        exact htask.resolve_right fun hsame => hother (Task.startStream.inj hsame)
      have hobject : (streamer.startStream newOptions).objects ref = streamer.objects ref :=
        Function.update_of_ne hother ..
      rw [hobject]
      by_cases hcurrent : ref = streamer.current
      · rw [hcurrent]
        exact (List.append_eq_nil_iff.mp hnothing).1
      · exact h.stale ref hold hcurrent
    current_allocated := Nat.lt_succ_self _
    task_allocated := by
      intro ref htask
      show ref < streamer.allocated + 1
      rw [htasks, List.mem_append, List.mem_singleton] at htask
      rcases htask with hold | hsame
      · exact Nat.lt_succ_of_lt (h.task_allocated ref hold)
      · exact (Task.startStream.inj hsame) ▸ Nat.lt_succ_self _
    classes := by
      rw [hoptions]
      exact hclasses }

theorem FilterInvariant.step {action : Action} (h : FilterInvariant streamer)
    (hkeeps : KeepsFilters environment streamer action)
    (hstep : streamer.step environment action = some next) : FilterInvariant next := by
  cases action with
  | activation message =>
      cases hread : StreamOptions.deserialize environment.newInstance streamer.fresh message with
      | error fault => simp [Streamer.step, hread] at hstep
      | ok newOptions =>
          simp only [Streamer.step, hread, Option.some.injEq] at hstep
          subst hstep
          obtain ⟨hflips, hdistinct, hids⟩ := deserialize_ids hread
          exact h.startStream hkeeps.1 hflips hdistinct hids (hkeeps.2 newOptions hread)
  | command call =>
      have hcall : (∀ newOptions, call ≠ .startStream newOptions) ∧
          streamer.call environment call = some next := by
        cases call <;> first | exact ⟨by simp, hstep⟩ | cases hstep
      exact h.call hcall.1 hcall.2
  | task =>
      cases htasks : streamer.tasks with
      | nil => simp [Streamer.step, htasks] at hstep
      | cons task tasks =>
          simp only [Streamer.step, htasks] at hstep
          exact h.runTask htasks (hkeeps task (by rw [htasks]; rfl)) hstep

theorem filterInvariant_initial : FilterInvariant .initial where
  distinct := List.nodup_nil
  used := by simp [initial, StreamOptions.ids, StreamOptions.filters, StreamOptions.started,
    StreamOptions.flips, Streamer.options]
  rendered := List.nodup_nil
  sound := by simp [initial]
  flips := by simp [initial, StreamOptions.flips, Streamer.options]
  complete := by simp [initial, StreamOptions.ids, StreamOptions.filters, StreamOptions.started,
    StreamOptions.flips, Streamer.options]
  stale := by simp [initial]
  current_allocated := by decide
  task_allocated := by simp [initial]
  classes := List.nodup_nil

/-- In a run whose steps all keep the filters, the GL interface renders exactly
the active filters whenever no task is waiting. -/
theorem filtersMatch_of_keeping
    (hreachable : ((machine environment).restrict (KeepsFilters environment)).Reachable streamer)
    (hdone : streamer.tasks = []) : FiltersMatch streamer := by
  have hinvariant : FilterInvariant streamer := hreachable.invariant
    (fun _ hinitial => hinitial ▸ filterInvariant_initial)
    (fun _ _ _ h hstep => h.step hstep.1 hstep.2)
  exact hinvariant.filtersMatch hdone

end Runs

section Samples

/-- An activation with a correction filter and an effect. -/
def sampleActivation : Bytes :=
  StreamOptions.encodeActivation
    ⟨30, 640, 480, 1, false, 4096000, 512000, 25600000, false, false, false, 0⟩
    [(ascii "Gamma", 10)] (ascii "Sepia")

def sampleOptions (fresh : Nat) : StreamOptions :=
  { activeEffectFilter := some ⟨fresh + 1, .sepiaFilterRender, none⟩
    activeCorrectionFilters := [⟨fresh, .gammaFilterRender, some 10⟩] }

theorem deserialize_sample (fresh : Nat) :
    StreamOptions.deserialize Environment.capable.newInstance fresh sampleActivation =
      .ok (sampleOptions fresh) := by
  have hread : StreamOptions.readActivation Environment.capable.newInstance sampleActivation 0 =
      .ok (⟨⟨30, 640, 480, 1, false, 4096000, 512000, 25600000, false, false, false, 0⟩,
        [(.gammaFilterRender, 10)], literal "Sepia"⟩, sampleActivation.length) := by
    decide +kernel
  have heffect : StreamOptions.effectOf Environment.capable.newInstance (literal "Sepia") =
      .ok (some .sepiaFilterRender) := by
    decide +kernel
  have hsize : (40 ≤ sampleActivation.length &&
      sampleActivation.length ≤ StreamOptions.MAX_PACKET) = true := by
    decide +kernel
  rw [StreamOptions.deserialize, hsize, hread]
  simp only [heffect]
  rfl

/-- The streamer after an activation with the sample and its task. -/
def sampleStarted (streamer : Streamer) : Streamer :=
  ({ streamer.startStream (sampleOptions streamer.fresh) with
    tasks := [] }.applyOptionsToStream (sampleOptions streamer.fresh)).startStreamInternal .capable

theorem step_sample (streamer : Streamer) :
    streamer.step .capable (.activation sampleActivation) =
      some (streamer.startStream (sampleOptions streamer.fresh)) := by
  rw [step, deserialize_sample]

/-- The sample is started on a new streamer. -/
theorem filtersMatch_activated :
    (sampleStarted .initial).glInterface = [1, 0] ∧ FiltersMatch (sampleStarted .initial) := by
  have hclasses : (sampleOptions 0).correctionClasses.Nodup := List.nodup_singleton _
  have hstarted : ((machine .capable).restrict (KeepsFilters .capable)).Reachable
      (Streamer.initial.startStream (sampleOptions 0)) := by
    refine .step (.activation sampleActivation) (.initial rfl) ⟨⟨rfl, ?_⟩, step_sample .initial⟩
    intro newOptions hread
    obtain rfl := Except.ok.inj ((deserialize_sample 0).symm.trans hread)
    exact hclasses
  have hrun : ((machine .capable).restrict (KeepsFilters .capable)).Reachable
      (sampleStarted .initial) := by
    refine .step .task hstarted ⟨?_, rfl⟩
    intro task htask
    obtain rfl := Option.some.inj htask
    exact fun _ _ => List.not_mem_nil
  exact ⟨rfl, filtersMatch_of_keeping hrun rfl⟩

/-- The sample is started twice: the filters of the first activation stay in the
GL interface, although no options know them any more. -/
theorem filters_left_rendered :
    ∃ streamer, (machine .capable).Reachable streamer ∧ streamer.tasks = [] ∧
      streamer.options.ids = [3, 2] ∧ streamer.glInterface = [1, 0, 3, 2] ∧
      ¬ FiltersMatch streamer := by
  have honce : (machine .capable).Reachable (sampleStarted .initial) :=
    .step .task (.step (.activation sampleActivation) (.initial rfl) (step_sample .initial)) rfl
  have htwice : (machine .capable).Reachable (sampleStarted (sampleStarted .initial)) :=
    .step .task (.step (.activation sampleActivation) honce (step_sample _)) rfl
  refine ⟨_, htwice, rfl, rfl, rfl, fun hmatch => ?_⟩
  have hlength := hmatch.rendered.length_eq
  exact absurd hlength (by decide)

end Samples

end Streamer

end OpenCam.Android
