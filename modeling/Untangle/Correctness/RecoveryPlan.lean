import Mathlib.Data.List.Flatten
import Untangle.Correctness.Completes
import Untangle.Correctness.Dates
import Untangle.Correctness.Debit

/-!
# `Correctness.RecoveryPlan` — a recovery plan accounts for every unresolved line

Grouping and merging only move keys and amounts about. Through both each group keeps its amounts in step with its keys
(`Carries`), an export group a window around its lines (`Spans`), and all groups together the keys of the lines they
were made of (`keys_actionGroups`). The sums of a plan follow from the keys alone (`recovery_accounted`).
-/

namespace Untangle

open Lib

variable {U : Unicode} {pack : NarrationEvidencePack} {index : ReconIndex} {lines : List BankCreditLine}
  {line : BankCreditLine}

/-! ## What a line asks for -/

/-- A line with its action, as a request: the window of an export is the line's. -/
structure Request (p : BankCreditLine × ActionType × ActionParams) : Prop where
  window : p.2.1 = .exportSettlementReport → WindowDated p.1 ∧
    p.2.2 = .window (isoDate (p.1.valueDate - splitDateWindow)) (isoDate (p.1.valueDate + splitDateWindow))

theorem exportWindow_eq_ok {w : ActionParams} (h : exportWindow line = .ok w) : WindowDated line ∧
    w = .window (isoDate (line.valueDate - splitDateWindow)) (isoDate (line.valueDate + splitDateWindow)) := by
  have hdated := exportWindow_ok_iff.mp ⟨w, h⟩
  obtain ⟨dateFrom, hfrom, h⟩ := bind_eq_ok.mp h
  obtain ⟨dateTo, hto, h⟩ := bind_eq_ok.mp h
  obtain ⟨_, rfl⟩ := addDays_eq_ok.mp hfrom
  obtain ⟨_, rfl⟩ := addDays_eq_ok.mp hto
  exact ⟨hdated, (Except.ok.inj h).symm⟩

theorem request_of_ok {reason : BlockingReason} {action : ActionType × ActionParams}
    (h : mapBlockingToAction line reason = .ok action) : Request (line, action) := by
  have hexport : (exportWindow line).map (fun w => (ActionType.exportSettlementReport, w)) = .ok action →
      Request (line, action) := by
    intro hok
    obtain ⟨w, hw, rfl⟩ := map_eq_ok.mp hok
    exact ⟨fun _ => exportWindow_eq_ok hw⟩
  have hother : ∀ t params, t ≠ ActionType.exportSettlementReport →
      (.ok (t, params) : Except OverflowError (ActionType × ActionParams)) = .ok action → Request (line, action) := by
    intro t params hne hok
    rw [← Except.ok.inj hok]
    exact ⟨fun heq => absurd heq hne⟩
  cases reason with
  | brandNoTie => exact hexport h
  | reconFailure => exact hexport h
  | weakUtrSuffix => exact hother _ _ (by decide) h
  | ambiguousSetsum => exact hother _ _ (by decide) h
  | unknownSender => exact hother _ _ (by decide) h
  | ruleConflict => exact hother _ _ (by decide) h

/-- The requests of a plan are those of the unresolved lines, in order. -/
theorem requests_of_mapM {attrs : Dict String RailAttribution} {excs : Dict String ExceptionRecord}
    {mapped : List (BankCreditLine × ActionType × ActionParams)}
    (h : lines.mapM (lineAction U pack index attrs excs) = .ok mapped) :
    mapped.map Prod.fst = lines ∧ ∀ p ∈ mapped, Request p := by
  have hall := mapM_eq_ok.mp h
  have hline : ∀ line p, lineAction U pack index attrs excs line = .ok p → p.1 = line ∧ Request p := by
    intro line p hp
    obtain ⟨action, haction, hp⟩ := bind_eq_ok.mp hp
    rw [← Except.ok.inj hp]
    exact ⟨rfl, request_of_ok haction⟩
  constructor
  · clear h
    induction hall with
    | nil => rfl
    | cons hp _ ih => rw [List.map_cons, (hline _ _ hp).1, ih]
  · intro p hp
    obtain ⟨line, _, hok⟩ := exists_of_mem_mapM h hp
    exact (hline line p hok).2

/-! ## What a group carries -/

/-- The amounts are those of the keys. -/
def Carries (lines : List BankCreditLine) (keys : List String) (amounts : List ℤ) : Prop :=
  amounts = keys.map (amountOfKey lines)

theorem Carries.append {keys keys' : List String} {amounts amounts' : List ℤ} (h : Carries lines keys amounts)
    (h' : Carries lines keys' amounts') : Carries lines (keys ++ keys') (amounts ++ amounts') := by
  unfold Carries at *
  rw [List.map_append, h, h']

theorem carries_singleton (hnd : (lines.map BankCreditLine.key).Nodup) (hline : line ∈ lines) :
    Carries lines [line.key] [line.amountPaise] := by
  unfold Carries
  rw [List.map_cons, List.map_nil, amountOfKey_mem hnd hline]

/-- The window spans the windows of the lines it is for. -/
structure Spans (lines : List BankCreditLine) (keys : List String) (dateFrom dateTo : String) (f t : Date) : Prop where
  inCalendar : InCalendar f ∧ InCalendar t
  ordered : f ≤ t
  texts : dateFrom = isoDate f ∧ dateTo = isoDate t
  around : ∀ line ∈ lines, line.key ∈ keys → f ≤ line.valueDate - splitDateWindow ∧ line.valueDate + splitDateWindow ≤ t

/-- What an export item keeps through the merge. -/
structure Tracks (lines : List BankCreditLine) (i : ExportItem) : Prop where
  carries : Carries lines i.keys i.amounts
  spans : ∃ f t, Spans lines i.keys i.dateFrom i.dateTo f t

/-- A window in the calendar. -/
theorem window_calendar {d : ℤ} (h : 1 ≤ d - 5 ∧ d + 5 ≤ 3652059) :
    (InCalendar (d - 5) ∧ InCalendar (d + 5)) ∧ d - 5 ≤ d + 5 := by
  have hfrom : (1 ≤ d - 5 ∧ d - 5 ≤ 3652059) ∧ d - 5 ≤ d + 5 := by omega
  have hto : 1 ≤ d + 5 ∧ d + 5 ≤ 3652059 := by omega
  exact ⟨⟨hfrom.1, hto⟩, hfrom.2⟩

theorem tracks_exportItem (hnd : (lines.map BankCreditLine.key).Nodup)
    {p : BankCreditLine × ActionType × ActionParams} (hline : p.1 ∈ lines) (hp : Request p) {i : ExportItem}
    (h : exportItem p = some i) : Tracks lines i := by
  obtain ⟨line, type, params⟩ := p
  unfold exportItem at h
  dsimp only at h
  split at h
  · rename_i dateFrom dateTo heq
    obtain ⟨rfl, rfl⟩ := Prod.mk.inj heq
    obtain ⟨hdated, hparams⟩ := hp.window rfl
    obtain ⟨hfrom, hto⟩ := ActionParams.window.inj hparams
    rw [← Option.some.inj h]
    unfold WindowDated splitDateWindow at hdated
    refine ⟨carries_singleton hnd hline, line.valueDate - splitDateWindow, line.valueDate + splitDateWindow, ?_, ?_,
      ⟨hfrom, hto⟩, ?_⟩
    · exact (window_calendar hdated).1
    · exact (window_calendar hdated).2
    · intro other hother hkey
      rw [line_ext hnd hother hline (List.mem_singleton.mp hkey)]
      exact ⟨le_rfl, le_rfl⟩
  · exact absurd h (by simp)

/-! ## The merge -/

/-- The window being grown, with an item that begins in it. -/
def grown (last item : ExportItem) : ExportItem :=
  { last with
    dateTo := if last.dateTo < item.dateTo then item.dateTo else last.dateTo
    keys := last.keys ++ item.keys
    amounts := last.amounts ++ item.amounts }

theorem mergeExports_cons (last item : ExportItem) (items : List ExportItem) :
    mergeExports last (item :: items) =
      if item.dateFrom ≤ last.dateTo then mergeExports (grown last item) items
      else last :: mergeExports item items := rfl

/-- Both windows are inside the grown one. -/
theorem tracks_grown {last item : ExportItem} (hlast : Tracks lines last) (hitem : Tracks lines item)
    (hsorted : last.dateFrom ≤ item.dateFrom) : Tracks lines (grown last item) := by
  obtain ⟨hcarries, f, t, hcal, hft, ⟨hfrom, hto⟩, haround⟩ := hlast
  obtain ⟨hcarries', f', t', hcal', hft', ⟨hfrom', hto'⟩, haround'⟩ := hitem
  have hstart : f ≤ f' := by
    rw [hfrom, hfrom'] at hsorted
    exact (isoDate_le_iff hcal.1 hcal'.1).mp hsorted
  have hend : (grown last item).dateTo = isoDate (max t t') := by
    unfold grown
    dsimp only
    rw [hto, hto']
    by_cases hlt : t < t'
    · rw [if_pos ((isoDate_lt_iff hcal.2 hcal'.2).mpr hlt), max_eq_right hlt.le]
    · rw [if_neg (mt (isoDate_lt_iff hcal.2 hcal'.2).mp hlt), max_eq_left (not_lt.mp hlt)]
  have hmax : InCalendar (max t t') := by
    rcases max_choice t t' with h | h <;> rw [h]
    · exact hcal.2
    · exact hcal'.2
  refine ⟨hcarries.append hcarries', f, max t t', ⟨hcal.1, hmax⟩, hft.trans (le_max_left t t'), ⟨hfrom, hend⟩, ?_⟩
  intro line hline hkey
  rcases List.mem_append.mp hkey with hkey | hkey
  · obtain ⟨hlow, hhigh⟩ := haround line hline hkey
    exact ⟨hlow, hhigh.trans (le_max_left t t')⟩
  · obtain ⟨hlow, hhigh⟩ := haround' line hline hkey
    exact ⟨hstart.trans hlow, hhigh.trans (le_max_right t t')⟩

/-- Items in the order of their first days. -/
def ByStart (items : List ExportItem) : Prop := items.Pairwise fun i j => i.dateFrom ≤ j.dateFrom

/-- **The merge loses no key**, and keeps the keys in order. -/
theorem keys_mergeExports (last : ExportItem) (items : List ExportItem) :
    (mergeExports last items).flatMap ExportItem.keys = last.keys ++ items.flatMap ExportItem.keys := by
  induction items generalizing last with
  | nil => simp [mergeExports]
  | cons item items ih =>
      rw [mergeExports_cons]
      split
      · rw [ih, List.flatMap_cons]
        show (last.keys ++ item.keys) ++ _ = _
        rw [List.append_assoc]
      · rw [List.flatMap_cons, ih, List.flatMap_cons]

theorem tracks_mergeExports {last : ExportItem} {items : List ExportItem} (hsorted : ByStart (last :: items))
    (h : ∀ i ∈ last :: items, Tracks lines i) : ∀ i ∈ mergeExports last items, Tracks lines i := by
  induction items generalizing last with
  | nil => exact h
  | cons item items ih =>
      obtain ⟨hfirst, hrest⟩ := List.pairwise_cons.mp hsorted
      have hlast := h last List.mem_cons_self
      have hitem := h item (List.mem_cons_of_mem _ List.mem_cons_self)
      rw [mergeExports_cons]
      split
      · apply ih
        · exact List.pairwise_cons.mpr ⟨fun j hj => hfirst j (List.mem_cons_of_mem _ hj), (List.pairwise_cons.mp hrest).2⟩
        · intro i hi
          rcases List.mem_cons.mp hi with rfl | hi
          · exact tracks_grown hlast hitem (hfirst item List.mem_cons_self)
          · exact h i (List.mem_cons_of_mem _ (List.mem_cons_of_mem _ hi))
      · intro i hi
        rcases List.mem_cons.mp hi with rfl | hi
        · exact hlast
        · exact ih hrest (fun j hj => h j (List.mem_cons_of_mem _ hj)) i hi

/-- No window begins before the first. -/
theorem start_le_mergeExports {last : ExportItem} {items : List ExportItem} (hsorted : ByStart (last :: items)) :
    ∀ i ∈ mergeExports last items, last.dateFrom ≤ i.dateFrom := by
  induction items generalizing last with
  | nil =>
      intro i hi
      rw [List.mem_singleton.mp hi]
  | cons item items ih =>
      obtain ⟨hfirst, hrest⟩ := List.pairwise_cons.mp hsorted
      rw [mergeExports_cons]
      split
      · intro i hi
        have hgrown : ByStart (grown last item :: items) := List.pairwise_cons.mpr
          ⟨fun j hj => hfirst j (List.mem_cons_of_mem _ hj), (List.pairwise_cons.mp hrest).2⟩
        exact ih hgrown i hi
      · intro i hi
        rcases List.mem_cons.mp hi with rfl | hi
        · exact le_rfl
        · exact (hfirst item List.mem_cons_self).trans (ih hrest i hi)

/-- **Merged windows do not overlap**: each ends before the next begins. -/
theorem disjoint_mergeExports {last : ExportItem} {items : List ExportItem} (hsorted : ByStart (last :: items)) :
    (mergeExports last items).Pairwise fun i j => i.dateTo < j.dateFrom := by
  induction items generalizing last with
  | nil => exact List.pairwise_singleton _ _
  | cons item items ih =>
      obtain ⟨hfirst, hrest⟩ := List.pairwise_cons.mp hsorted
      rw [mergeExports_cons]
      split
      · exact ih (List.pairwise_cons.mpr
          ⟨fun j hj => hfirst j (List.mem_cons_of_mem _ hj), (List.pairwise_cons.mp hrest).2⟩)
      · rename_i hgap
        refine List.pairwise_cons.mpr ⟨fun i hi => ?_, ih hrest⟩
        exact (not_le.mp hgap).trans_le (start_le_mergeExports hrest i hi)

/-- The three facts about the merge of any items. -/
structure Merged (lines : List BankCreditLine) (items merged : List ExportItem) : Prop where
  keys : (merged.flatMap ExportItem.keys).Perm (items.flatMap ExportItem.keys)
  tracks : ∀ i ∈ merged, Tracks lines i
  disjoint : merged.Pairwise fun i j => i.dateTo < j.dateFrom

theorem merged_mergedExports {items : List ExportItem} (h : ∀ i ∈ items, Tracks lines i) :
    Merged lines items (mergedExports items) := by
  have hperm := List.perm_insertionSort
    (fun i j : ExportItem => toLex (i.dateFrom, i.dateTo) ≤ toLex (j.dateFrom, j.dateTo)) items
  have hsorted := List.pairwise_insertionSort
    (fun i j : ExportItem => toLex (i.dateFrom, i.dateTo) ≤ toLex (j.dateFrom, j.dateTo)) items
  have hstart : ByStart (items.insertionSort fun i j => toLex (i.dateFrom, i.dateTo) ≤ toLex (j.dateFrom, j.dateTo)) := by
    refine hsorted.imp fun {i j} hle => ?_
    rcases (Prod.Lex.le_iff).mp hle with hlt | ⟨heq, _⟩
    · exact hlt.le
    · exact heq.le
  unfold mergedExports
  generalize items.insertionSort (fun i j => toLex (i.dateFrom, i.dateTo) ≤ toLex (j.dateFrom, j.dateTo)) = sorted
    at hperm hstart
  cases sorted with
  | nil =>
      rw [← hperm.nil_eq]
      exact ⟨List.Perm.refl _, fun _ hi => absurd hi List.not_mem_nil, List.Pairwise.nil⟩
  | cons item rest =>
      refine ⟨?_, tracks_mergeExports hstart fun i hi => h i (hperm.mem_iff.mp hi), disjoint_mergeExports hstart⟩
      dsimp only
      rw [keys_mergeExports, ← List.flatMap_cons]
      exact hperm.flatMap_right _

/-! ## All groups -/

/-- A group of a plan: its amounts go with its keys, and an export has a window around its lines. -/
structure GroupTracks (lines : List BankCreditLine) (g : ActionGroup) : Prop where
  carries : Carries lines g.keys g.amounts
  spans : g.actionType = .exportSettlementReport →
    ∃ dateFrom dateTo f t, g.params = .window dateFrom dateTo ∧ Spans lines g.keys dateFrom dateTo f t

section Groups

variable {mapped : List (BankCreditLine × ActionType × ActionParams)}

theorem keys_exportItems (hrequests : ∀ p ∈ mapped, Request p) :
    (mapped.filterMap exportItem).flatMap ExportItem.keys =
      (mapped.filter fun p => p.2.1 = .exportSettlementReport).map fun p => p.1.key := by
  induction mapped with
  | nil => rfl
  | cons p mapped ih =>
      have ih := ih fun q hq => hrequests q (List.mem_cons_of_mem _ hq)
      have hp := hrequests p List.mem_cons_self
      obtain ⟨line, type, params⟩ := p
      by_cases hexport : type = .exportSettlementReport
      · subst hexport
        obtain ⟨_, hparams⟩ := hp.window rfl
        dsimp only at hparams
        subst hparams
        rw [List.filter_cons_of_pos (by simp), List.map_cons, ← ih]
        rfl
      · have hnone : exportItem (line, type, params) = none := by
          unfold exportItem
          split
          · rename_i heq
            exact absurd (congrArg Prod.fst heq) hexport
          · rfl
        rw [List.filter_cons_of_neg (by simpa using hexport), ← ih, List.filterMap_cons, hnone]

theorem keys_otherGroups :
    ((otherGroups mapped).items.flatMap fun p => p.2.keys).Perm
      ((mapped.filter fun p => ¬ p.2.1 = .exportSettlementReport).map fun p => p.1.key) := by
  have hperm := Dict.flatMap_gather_perm
    (fun p : BankCreditLine × ActionType × ActionParams =>
      if p.2.1 = .exportSettlementReport then none else some p.2)
    (fun p group =>
      let group := group.getD ⟨p.2.1, p.2.2, [], []⟩
      { group with keys := group.keys ++ [p.1.key], amounts := group.amounts ++ [p.1.amountPaise] })
    ActionGroup.keys (fun p => [p.1.key]) (fun p o => by cases o <;> rfl) mapped
  have hfilter : (mapped.filter fun p =>
      (if p.2.1 = .exportSettlementReport then none else some p.2 : Option (ActionType × ActionParams)).isSome) =
      mapped.filter fun p => ¬ p.2.1 = .exportSettlementReport := by
    apply List.filter_congr
    intro p _
    by_cases h : p.2.1 = .exportSettlementReport <;> simp [h]
  rw [hfilter] at hperm
  rw [List.map_eq_flatMap]
  exact hperm

/-- **The groups have the keys of their lines.** -/
theorem keys_actionGroups (hrequests : ∀ p ∈ mapped, Request p)
    (hmerged : Merged lines (mapped.filterMap exportItem) (mergedExports (mapped.filterMap exportItem))) :
    ((actionGroups mapped).flatMap ActionGroup.keys).Perm (mapped.map fun p => p.1.key) := by
  have hexports : ((mergedExports (mapped.filterMap exportItem)).flatMap ExportItem.keys).Perm
      ((mapped.filter fun p => p.2.1 = .exportSettlementReport).map fun p => p.1.key) := by
    rw [← keys_exportItems hrequests]
    exact hmerged.keys
  unfold actionGroups
  rw [List.flatMap_append, List.flatMap_map, List.flatMap_map]
  refine (hexports.append keys_otherGroups).trans ?_
  rw [← List.map_append]
  apply List.Perm.map
  simpa using List.filter_append_perm (fun p : BankCreditLine × ActionType × ActionParams =>
    decide (p.2.1 = .exportSettlementReport)) mapped

theorem tracks_otherGroups (hnd : (lines.map BankCreditLine.key).Nodup) (hlines : ∀ p ∈ mapped, p.1 ∈ lines)
    {g : ActionGroup} (hg : g ∈ (otherGroups mapped).items.map Prod.snd) :
    Carries lines g.keys g.amounts ∧ g.actionType ≠ .exportSettlementReport := by
  obtain ⟨⟨k, g⟩, hmem, rfl⟩ := List.mem_map.mp hg
  refine Dict.forall_gather (P := fun _ g => Carries lines g.keys g.amounts ∧
    g.actionType ≠ .exportSettlementReport) _ _ ?_ (Dict.get?_of_mem hmem)
  intro p hp k hk o ho
  have hline := carries_singleton hnd (hlines p hp)
  split at hk
  · cases hk
  · rename_i hother
    cases o with
    | none => exact ⟨hline, hother⟩
    | some v =>
        obtain ⟨hcarries, hne⟩ := ho v rfl
        exact ⟨hcarries.append hline, hne⟩

theorem tracks_actionGroups (hnd : (lines.map BankCreditLine.key).Nodup) (hlines : ∀ p ∈ mapped, p.1 ∈ lines)
    (hmerged : Merged lines (mapped.filterMap exportItem) (mergedExports (mapped.filterMap exportItem))) :
    ∀ g ∈ actionGroups mapped, GroupTracks lines g := by
  intro g hg
  rcases List.mem_append.mp hg with hg | hg
  · obtain ⟨i, hi, rfl⟩ := List.mem_map.mp hg
    obtain ⟨hcarries, f, t, hspans⟩ := hmerged.tracks i hi
    exact ⟨hcarries, fun _ => ⟨i.dateFrom, i.dateTo, f, t, rfl, hspans⟩⟩
  · obtain ⟨hcarries, hne⟩ := tracks_otherGroups hnd hlines hg
    exact ⟨hcarries, fun heq => absurd heq hne⟩

end Groups

/-! ## Actions -/

/-- The days of an export. -/
structure ExportDates (a : RecoveryAction) (f t : Date) : Prop where
  isExport : a.actionType = .exportSettlementReport
  inCalendar : InCalendar f ∧ InCalendar t
  ordered : f ≤ t
  params : a.params = .window (isoDate f) (isoDate t)

/-- An action in terms of the lines that it resolves. -/
structure Accounts (lines : List BankCreditLine) (a : RecoveryAction) : Prop where
  recoverable : a.recoverablePaise = (a.resolves.map fun k => creditPart (amountOfKey lines k)).sum
  exposure : a.debitExposurePaise = (a.resolves.map fun k => debitPart (amountOfKey lines k)).sum
  /-- An export covers the window of every line it resolves. -/
  window : a.actionType = .exportSettlementReport → ∃ f t, ExportDates a f t ∧
    ∀ line ∈ lines, line.key ∈ a.resolves → f ≤ line.valueDate - splitDateWindow ∧ line.valueDate + splitDateWindow ≤ t

theorem resolves_perm {g : ActionGroup} (hnd : g.keys.Nodup) : g.action.resolves.Perm g.keys := by
  show (g.keys.dedup.insertionSort (· ≤ ·)).Perm g.keys
  rw [hnd.dedup]
  exact List.perm_insertionSort _ _

theorem accounts_action {g : ActionGroup} (hnd : g.keys.Nodup) (h : GroupTracks lines g) : Accounts lines g.action := by
  have hperm := resolves_perm hnd
  have hsum : ∀ part : ℤ → ℤ, (g.amounts.map part).sum =
      (g.action.resolves.map fun k => part (amountOfKey lines k)).sum := by
    intro part
    rw [h.carries, List.map_map]
    exact ((hperm.map _).sum_eq).symm
  refine ⟨hsum creditPart, hsum debitPart, fun hexport => ?_⟩
  obtain ⟨dateFrom, dateTo, f, t, hparams, hspans⟩ := h.spans hexport
  have hdates : ExportDates g.action f t := by
    refine ⟨hexport, hspans.inCalendar, hspans.ordered, ?_⟩
    rw [← hspans.texts.1, ← hspans.texts.2]
    exact hparams
  exact ⟨f, t, hdates, fun line hline hkey => hspans.around line hline (hperm.mem_iff.mp hkey)⟩

/-- The windows of two exports do not meet. -/
def WindowsApart (a b : RecoveryAction) : Prop := ∀ f t f' t', ExportDates a f t → ExportDates b f' t' → t < f' ∨ t' < f

theorem WindowsApart.symm {a b : RecoveryAction} (h : WindowsApart a b) : WindowsApart b a :=
  fun f t f' t' hb ha => (h f' t' f t ha hb).symm

theorem apart_actions {mapped : List (BankCreditLine × ActionType × ActionParams)}
    (hmerged : Merged lines (mapped.filterMap exportItem) (mergedExports (mapped.filterMap exportItem)))
    (hothers : ∀ g ∈ (otherGroups mapped).items.map Prod.snd, g.actionType ≠ .exportSettlementReport) :
    ((actionGroups mapped).map ActionGroup.action).Pairwise WindowsApart := by
  unfold actionGroups
  rw [List.map_append, List.map_map]
  refine List.pairwise_append.mpr ⟨?_, ?_, ?_⟩
  · apply List.pairwise_map.mpr
    refine hmerged.disjoint.imp fun {i j} hgap f t f' t' hi hj => Or.inl ?_
    obtain ⟨_, hto⟩ := ActionParams.window.inj hi.params
    obtain ⟨hfrom, _⟩ := ActionParams.window.inj hj.params
    rw [hto, hfrom] at hgap
    exact (isoDate_lt_iff hi.inCalendar.2 hj.inCalendar.1).mp hgap
  · apply List.pairwise_map.mpr
    generalize (otherGroups mapped).items.map Prod.snd = groups at hothers
    induction groups with
    | nil => exact List.Pairwise.nil
    | cons g groups ih =>
        refine List.pairwise_cons.mpr ⟨fun g' _ f t f' t' hdates => ?_, ih fun g' hg' => ?_⟩
        · exact absurd hdates.isExport (hothers g List.mem_cons_self)
        · exact hothers g' (List.mem_cons_of_mem _ hg')
  · intro a _ b hb f t f' t' _ hdates
    obtain ⟨g, hg, rfl⟩ := List.mem_map.mp hb
    exact absurd hdates.isExport (hothers g hg)

/-! ## The plan -/

/-- The plan accounts for the unresolved lines. -/
structure RecoveryPlan.Accounted (lines : List BankCreditLine) (plan : RecoveryPlan) : Prop where
  /-- Every unresolved line is resolved by one action, once, and nothing else is. -/
  resolves : (plan.actions.flatMap RecoveryAction.resolves).Perm (lines.map BankCreditLine.key)
  once : (plan.actions.flatMap RecoveryAction.resolves).Nodup
  recoverable : (plan.actions.map RecoveryAction.recoverablePaise).sum = plan.recoverableIfActionedPaise
  credit : (plan.actions.map RecoveryAction.recoverablePaise).sum = plan.unresolvedCreditPaise
  debit : (plan.actions.map RecoveryAction.debitExposurePaise).sum = plan.unresolvedDebitPaise
  net : plan.unresolvedPaise = plan.unresolvedCreditPaise - plan.unresolvedDebitPaise
  windows : ∀ a ∈ plan.actions, a.actionType = .exportSettlementReport → ∃ f t, ExportDates a f t ∧
    ∀ line ∈ lines, line.key ∈ a.resolves → f ≤ line.valueDate - splitDateWindow ∧ line.valueDate + splitDateWindow ≤ t
  disjoint : plan.actions.Pairwise WindowsApart

/-- The plan keeps the first of some actions. -/
structure RecoveryPlan.Capped (plan : RecoveryPlan) (actions : List RecoveryAction) (maxActions : ℤ) : Prop where
  isPrefix : plan.actions <+: actions
  kept : 0 ≤ maxActions → plan.actions = actions.take maxActions.toNat
  recoverable : plan.recoverableIfActionedPaise = (plan.actions.map RecoveryAction.recoverablePaise).sum

section Plan

theorem sum_flatMap_map {α β : Type} (f : α → List β) (part : β → ℤ) (l : List α) :
    ((l.flatMap f).map part).sum = (l.map fun a => ((f a).map part).sum).sum := by
  induction l with
  | nil => rfl
  | cons a l ih => rw [List.flatMap_cons, List.map_append, List.sum_append, ih, List.map_cons, List.sum_cons]

variable {unresolved : List BankCreditLine}

/-- What the lines of some unresolved keys bring in. -/
theorem credit_of_keys (hnd : (lines.map BankCreditLine.key).Nodup) (hsub : unresolved.Sublist lines) {ks : List String}
    (h : ks ⊆ unresolved.map BankCreditLine.key) :
    ((ks.filterMap (linesByKey lines).dict.get?).map fun line => creditPart line.amountPaise) =
      ks.map fun k => creditPart (amountOfKey unresolved k) := by
  induction ks with
  | nil => rfl
  | cons k ks ih =>
      obtain ⟨line, hline, rfl⟩ := List.mem_map.mp (h List.mem_cons_self)
      have hget := get?_linesByKey hnd (hsub.subset hline)
      rw [List.filterMap_cons, hget, List.map_cons, List.map_cons, ih fun k hk => h (List.mem_cons_of_mem _ hk),
        amountOfKey_mem (hnd.sublist (hsub.map _)) hline]

/-- **The kept actions add up to what the plan announces.** -/
theorem recoverable_of_actions (hnd : (lines.map BankCreditLine.key).Nodup) (hsub : unresolved.Sublist lines)
    {actions : List RecoveryAction} (haccounts : ∀ a ∈ actions, Accounts unresolved a)
    (hkeys : actions.flatMap RecoveryAction.resolves ⊆ unresolved.map BankCreditLine.key)
    (honce : (actions.flatMap RecoveryAction.resolves).Nodup) :
    (((actions.flatMap RecoveryAction.resolves).dedup.filterMap (linesByKey lines).dict.get?).map
      fun line => creditPart line.amountPaise).sum = (actions.map RecoveryAction.recoverablePaise).sum := by
  rw [honce.dedup, credit_of_keys hnd hsub hkeys, sum_flatMap_map]
  congr 1
  apply List.map_congr_left
  intro a ha
  exact (haccounts a ha).recoverable.symm

/-- The ranked actions of a plan. -/
def rankedActions (groups : List ActionGroup) : List RecoveryAction :=
  (groups.map ActionGroup.action).insertionSort fun a b => a.rankKey ≤ b.rankKey

theorem kept_of_length_le {lines unresolved : List BankCreditLine} {groups : List ActionGroup} {maxActions : ℤ}
    (h : ((rankedActions groups).length : ℤ) ≤ maxActions) :
    (planOf lines unresolved maxActions groups).actions = rankedActions groups := if_neg (not_lt.mpr h)

theorem take_of_nonneg {groups : List ActionGroup} {maxActions : ℤ} (h : 0 ≤ maxActions) :
    (planOf lines unresolved maxActions groups).actions = (rankedActions groups).take maxActions.toNat := by
  show (if maxActions < (rankedActions groups).length then sliceTo maxActions (rankedActions groups)
    else rankedActions groups) = _
  split
  · unfold sliceTo
    rw [if_pos h]
  · rename_i hlong
    rw [List.take_of_length_le]
    omega

/-- What the groups of a plan establish together. -/
structure Accounting (unresolved : List BankCreditLine) (actions : List RecoveryAction) : Prop where
  accounts : ∀ a ∈ actions, Accounts unresolved a
  resolves : (actions.flatMap RecoveryAction.resolves).Perm (unresolved.map BankCreditLine.key)
  apart : actions.Pairwise WindowsApart

theorem accounting_ranked (hnd : (unresolved.map BankCreditLine.key).Nodup)
    {mapped : List (BankCreditLine × ActionType × ActionParams)} (hfst : mapped.map Prod.fst = unresolved)
    (hrequests : ∀ p ∈ mapped, Request p) : Accounting unresolved (rankedActions (actionGroups mapped)) := by
  have hlines : ∀ p ∈ mapped, p.1 ∈ unresolved := fun p hp => hfst ▸ List.mem_map_of_mem hp
  have hitems : ∀ i ∈ mapped.filterMap exportItem, Tracks unresolved i := by
    intro i hi
    obtain ⟨p, hp, hsome⟩ := List.mem_filterMap.mp hi
    exact tracks_exportItem hnd (hlines p hp) (hrequests p hp) hsome
  have hmerged := merged_mergedExports hitems
  have hkeys := keys_actionGroups hrequests hmerged
  have hline : (mapped.map fun p => p.1.key) = unresolved.map BankCreditLine.key := by
    rw [← hfst, List.map_map]
    rfl
  rw [hline] at hkeys
  have hgroups : ∀ g ∈ actionGroups mapped, g.keys.Nodup := by
    intro g hg
    exact (List.nodup_flatMap.mp (hkeys.nodup_iff.mpr hnd)).1 g hg
  have hranked : (rankedActions (actionGroups mapped)).Perm ((actionGroups mapped).map ActionGroup.action) :=
    List.perm_insertionSort _ _
  refine ⟨fun a ha => ?_, ?_, ?_⟩
  · obtain ⟨g, hg, rfl⟩ := List.mem_map.mp (hranked.mem_iff.mp ha)
    exact accounts_action (hgroups g hg) (tracks_actionGroups hnd hlines hmerged g hg)
  · refine (hranked.flatMap_right _).trans ?_
    rw [List.flatMap_map]
    refine (List.Perm.flatMap_left _ fun g hg => ?_).trans hkeys
    exact resolves_perm (hgroups g hg)
  · apply (hranked.pairwise_iff fun h => WindowsApart.symm h).mpr
    exact apart_actions hmerged fun g hg => (tracks_otherGroups hnd hlines hg).2

/-- A whole plan accounts for the unresolved lines. -/
theorem accounted_planOf (hnd : (lines.map BankCreditLine.key).Nodup) (hsub : unresolved.Sublist lines)
    {groups : List ActionGroup} (h : Accounting unresolved (rankedActions groups)) {maxActions : ℤ}
    (hlong : ((rankedActions groups).length : ℤ) ≤ maxActions) :
    (planOf lines unresolved maxActions groups).Accounted unresolved := by
  have hactions : (planOf lines unresolved maxActions groups).actions = rankedActions groups := kept_of_length_le hlong
  have hkeys := hnd.sublist (hsub.map BankCreditLine.key)
  have honce := h.resolves.nodup_iff.mpr hkeys
  have hpart : ∀ (f : RecoveryAction → ℤ) (part : ℤ → ℤ),
      (∀ a ∈ rankedActions groups, f a = (a.resolves.map fun k => part (amountOfKey unresolved k)).sum) →
      ((rankedActions groups).map f).sum = ((unresolved.map BankCreditLine.amountPaise).map part).sum := by
    intro f part hf
    have hsum := (h.resolves.map fun k => part (amountOfKey unresolved k)).sum_eq
    rw [sum_flatMap_map] at hsum
    rw [List.map_congr_left hf, hsum, List.map_map, List.map_map]
    congr 1
    apply List.map_congr_left
    intro line hline
    exact congrArg part (amountOfKey_mem hkeys hline)
  have hcredit := hpart RecoveryAction.recoverablePaise creditPart fun a ha => (h.accounts a ha).recoverable
  refine ⟨?_, ?_, ?_, ?_, ?_, (amounts_planOf lines unresolved maxActions groups).net, ?_, ?_⟩
  · rw [hactions]
    exact h.resolves
  · rw [hactions]
    exact honce
  · rw [← recoverable_of_actions hnd hsub (fun a ha => h.accounts a (hactions ▸ ha))
      (hactions ▸ h.resolves.subset) (hactions ▸ honce)]
    rfl
  · rw [hactions]
    exact hcredit
  · rw [hactions]
    exact hpart RecoveryAction.debitExposurePaise debitPart fun a ha => (h.accounts a ha).exposure
  · intro a ha
    exact (h.accounts a (hactions ▸ ha)).window
  · rw [hactions]
    exact h.apart

/-- A capped plan keeps the first actions, and announces what they bring in. -/
theorem capped_planOf (hnd : (lines.map BankCreditLine.key).Nodup) (hsub : unresolved.Sublist lines)
    {groups : List ActionGroup} (h : Accounting unresolved (rankedActions groups)) (maxActions : ℤ) :
    (planOf lines unresolved maxActions groups).Capped (rankedActions groups) maxActions := by
  have htaken := prefix_actions_planOf lines unresolved maxActions groups
  have hflat : ((planOf lines unresolved maxActions groups).actions.flatMap RecoveryAction.resolves).Sublist
      ((rankedActions groups).flatMap RecoveryAction.resolves) := htaken.sublist.flatMap _
  have honce := (h.resolves.nodup_iff.mpr (hnd.sublist (hsub.map BankCreditLine.key))).sublist hflat
  refine ⟨htaken, take_of_nonneg, ?_⟩
  exact recoverable_of_actions hnd hsub (fun a ha => h.accounts a (htaken.subset ha))
    (fun k hk => h.resolves.subset (hflat.subset hk)) honce

end Plan

/-- **A recovery plan accounts for every unresolved line.** With room for all groups, each unresolved line is resolved by
    one action, the amounts add up, and the export windows are apart and wide enough; with less room the plan keeps the
    first actions of that plan. -/
theorem recovery_accounted (U : Unicode) (pack : NarrationEvidencePack) (index : ReconIndex)
    (lines : List BankCreditLine) (attributions : List RailAttribution) (exceptions : List ExceptionRecord)
    (hnd : (lines.map BankCreditLine.key).Nodup) :
    ∃ groups : Nat, ∀ (maxActions : ℤ) plan, groups ≤ maxActions →
      buildRecoveryPlan U pack index lines attributions exceptions maxActions = .ok plan →
      plan.actions.length = groups ∧
        plan.Accounted (unresolvedLines lines (attributionsByKey attributions) (exceptionsByKey exceptions)) ∧
        ∀ fewer capped, buildRecoveryPlan U pack index lines attributions exceptions fewer = .ok capped →
          capped.Capped plan.actions fewer := by
  have hsub : (unresolvedLines lines (attributionsByKey attributions) (exceptionsByKey exceptions)).Sublist lines :=
    (distinctBy_sublist _ _).trans List.filter_sublist
  unfold buildRecoveryPlan
  dsimp only
  by_cases hnil : unresolvedLines lines (attributionsByKey attributions) (exceptionsByKey exceptions) = []
  · refine ⟨0, fun maxActions plan _ hplan => ?_⟩
    rw [if_pos hnil] at hplan
    obtain rfl := Except.ok.inj hplan
    rw [hnil]
    refine ⟨rfl, ⟨List.Perm.refl _, List.nodup_nil, rfl, rfl, rfl, rfl, fun _ ha => absurd ha List.not_mem_nil,
      List.Pairwise.nil⟩, fun fewer capped hcapped => ?_⟩
    rw [if_pos rfl] at hcapped
    obtain rfl := Except.ok.inj hcapped
    exact ⟨List.prefix_rfl, fun _ => List.take_nil.symm, rfl⟩
  · cases hmapped : (unresolvedLines lines (attributionsByKey attributions) (exceptionsByKey exceptions)).mapM
        (lineAction U pack index (attributionsByKey attributions) (exceptionsByKey exceptions)) with
    | error e =>
        refine ⟨0, fun maxActions plan _ hplan => ?_⟩
        rw [if_neg hnil] at hplan
        cases hplan
    | ok mapped =>
        obtain ⟨hfst, hrequests⟩ := requests_of_mapM hmapped
        have haccounting := accounting_ranked (hnd.sublist (hsub.map BankCreditLine.key)) hfst hrequests
        refine ⟨(rankedActions (actionGroups mapped)).length, fun maxActions plan hlong hplan => ?_⟩
        rw [if_neg hnil] at hplan
        obtain rfl := Except.ok.inj hplan
        have hactions : (planOf lines (unresolvedLines lines (attributionsByKey attributions)
            (exceptionsByKey exceptions)) maxActions (actionGroups mapped)).actions = rankedActions (actionGroups mapped) :=
          kept_of_length_le hlong
        refine ⟨congrArg List.length hactions, accounted_planOf hnd hsub haccounting hlong,
          fun fewer capped hcapped => ?_⟩
        rw [if_neg hnil] at hcapped
        obtain rfl := Except.ok.inj hcapped
        rw [hactions]
        exact capped_planOf hnd hsub haccounting fewer

/-! ### Two abstained credits and a debit -/

def openLines : List BankCreditLine :=
  [creditLine "a" "NEFT RAZORPAY" 250000, { creditLine "b" "NEFT RAZORPAY" 40000 with valueDate := 739002 },
    { creditLine "c" "ATM" (-5000) with isCredit := false }]

def openAttributions : List RailAttribution := openLines.map fun line => abstain line 0 []

/-- The two windows overlap and become one. -/
example : ((buildRecoveryPlan asciiUnicode defaultNarrationPack (ReconIndex.ofRows asciiUnicode []) openLines
    openAttributions [] 10).toOption.map fun plan => plan.actions.map fun a => (a.params, a.resolves)) =
    some [(.window "2024-04-19" "2024-05-01", ["a", "b"]), (.item "2024-04-24" (-5000) none, ["c"])] := by
  decide +kernel

theorem recovery_accounted_open :
    (openLines.map BankCreditLine.key).Nodup ∧
      ∃ groups : Nat, ∀ (maxActions : ℤ) plan, groups ≤ maxActions →
        buildRecoveryPlan asciiUnicode defaultNarrationPack (ReconIndex.ofRows asciiUnicode []) openLines
          openAttributions [] maxActions = .ok plan →
        plan.actions.length = groups ∧
          plan.Accounted (unresolvedLines openLines (attributionsByKey openAttributions) (exceptionsByKey [])) ∧
          ∀ fewer capped, buildRecoveryPlan asciiUnicode defaultNarrationPack (ReconIndex.ofRows asciiUnicode [])
            openLines openAttributions [] fewer = .ok capped → capped.Capped plan.actions fewer :=
  have hnd : (openLines.map BankCreditLine.key).Nodup := by decide
  ⟨hnd, recovery_accounted asciiUnicode defaultNarrationPack (ReconIndex.ofRows asciiUnicode []) openLines
    openAttributions [] hnd⟩

end Untangle
