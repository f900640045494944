import LearningPlatform.Model.GithubCheckRuns
import LearningPlatform.Shared.Replacement
import LearningPlatform.Shared.Run

/-! # Check runs that a refresh stores and shows

A refresh reads the pages of GitHub's answer to their end, saves each run by its external id and
removes the other rows of the commit. The rows are found again by the text of the commit reference,
which is the head of the runs only if the student entered it in full. -/

namespace LearningPlatform

open Shared

theorem presence_eq_some {text : Option String} {key : String} (h : presence text = some key) :
    text = some key :=
  (Option.filter_eq_some_iff.mp h).1

/-! ## Pages -/

section Pages

variable {github : ℕ → CheckRunResponse} {pages : List (List CheckRunAttributes)} {total : ℕ}

/-- GitHub answers a request with an error or with the page of the list, and every page has the
same count. -/
def Serves (pages : List (List CheckRunAttributes)) (total : ℕ) (github : ℕ → CheckRunResponse) :
    Prop :=
  ∀ page runs totalCount, github page = .page runs totalCount →
    runs = pages.getD (page - 1) [] ∧ totalCount = some total

theorem flatten_take_succ {α : Type*} (pages : List (List α)) (k : ℕ) :
    (pages.take (k + 1)).flatten = (pages.take k).flatten ++ pages.getD k [] := by
  rw [List.take_add_one, List.flatten_append]
  cases hpage : pages[k]? <;> simp [hpage]

/-- A page that does not end the loop adds a run, so the count bounds the number of requests. -/
theorem exists_fetchRuns_eq (h : Serves pages total github) {fuel : ℕ} (page : ℕ)
    {runs : List CheckRunAttributes} (hfuel : total - runs.length < fuel) :
    ∃ result, fetchRuns github fuel page runs = some result := by
  induction fuel generalizing page runs with
  | zero => omega
  | succ fuel ih =>
    unfold fetchRuns
    cases hanswer : github page with
    | invalidUri => exact ⟨_, rfl⟩
    | raised => exact ⟨_, rfl⟩
    | failed code => exact ⟨_, rfl⟩
    | page pageRuns totalCount =>
      obtain ⟨-, rfl⟩ := h page pageRuns totalCount hanswer
      simp only [Option.getD_some]
      split
      · exact ⟨_, rfl⟩
      · rename_i hcomplete
        split
        · exact ⟨_, rfl⟩
        · rename_i hmore
          apply ih
          have hpage : 0 < pageRuns.length := by
            rw [List.length_pos_iff]
            intro hempty
            exact hcomplete ⟨hempty, by omega⟩
          rw [List.length_append] at hmore ⊢
          omega

/-- The loop ends with the runs of the pages up to some page, at least as many as the count. -/
theorem fetchRuns_eq_ok (h : Serves pages total github) {fuel k : ℕ}
    {loaded : List CheckRunAttributes}
    (hloaded : fetchRuns github fuel (k + 1) (pages.take k).flatten = some (.ok loaded)) :
    ∃ last, loaded = (pages.take last).flatten ∧ total ≤ loaded.length := by
  induction fuel generalizing k with
  | zero => simp [fetchRuns] at hloaded
  | succ fuel ih =>
    unfold fetchRuns at hloaded
    cases hanswer : github (k + 1) with
    | invalidUri => simp [hanswer] at hloaded
    | raised => simp [hanswer] at hloaded
    | failed code => simp [hanswer] at hloaded
    | page pageRuns totalCount =>
      obtain ⟨rfl, rfl⟩ := h (k + 1) pageRuns totalCount hanswer
      rw [hanswer] at hloaded
      simp only [Option.getD_some, Nat.add_sub_cancel, ← flatten_take_succ] at hloaded
      split at hloaded
      · simp at hloaded
      · split at hloaded
        · rename_i hcount
          obtain rfl : (pages.take (k + 1)).flatten = loaded := by simpa using hloaded
          exact ⟨k + 1, rfl, hcount⟩
        · exact ih hloaded

/-- With a count that is no less than the number of runs the loop ends with all of them. -/
theorem fetchRuns_eq_flatten (h : Serves pages total github) (htotal : pages.flatten.length ≤ total)
    {fuel : ℕ} {loaded : List CheckRunAttributes}
    (hloaded : fetchRuns github fuel 1 [] = some (.ok loaded)) : loaded = pages.flatten := by
  obtain ⟨last, rfl, hcount⟩ := fetchRuns_eq_ok (k := 0) h (by simpa using hloaded)
  have hstart : (pages.take last).flatten <+: pages.flatten := by
    refine ⟨(pages.drop last).flatten, ?_⟩
    rw [← List.flatten_append, List.take_append_drop]
  exact hstart.eq_of_length_le (htotal.trans hcount)

end Pages

/-! ## Rows -/

variable {parseUri : String → Option Uri}

theorem parseConclusion_eq_some {text : Option String} {conclusion : Option CheckConclusion}
    (h : parseConclusion text = some conclusion) : conclusion.map CheckConclusion.label = text := by
  cases text with
  | none =>
    obtain rfl : none = conclusion := by simpa [parseConclusion] using h
    rfl
  | some text =>
    obtain ⟨found, hfound, rfl⟩ := Option.map_eq_some_iff.mp h
    have hlabel : found.label = text := by simpa using List.find?_some hfound
    simp [hlabel]

theorem buildRun_eq_some {id submissionId : ℕ} {attributes : CheckRunAttributes} {now : Time}
    {run : StoredCheckRun} (h : buildRun parseUri id submissionId attributes now = some run) :
    run.id = id ∧ run.submissionId = submissionId ∧ run.attributes = attributes ∧
      run.fetchedAt = now := by
  unfold buildRun at h
  split at h
  · rename_i externalId name headSha status conclusion hid hname hsha hstatus hconclusion
    obtain ⟨text, htext, hfound⟩ := Option.bind_eq_some_iff.mp hstatus
    have hlabel : status.label = text := by simpa using List.find?_some hfound
    split at h
    · cases h
      refine ⟨rfl, rfl, ?_, rfl⟩
      rw [← hlabel] at htext
      have hname' := presence_eq_some hname
      have hsha' := presence_eq_some hsha
      have hconclusion' := parseConclusion_eq_some hconclusion
      simp only [StoredCheckRun.attributes, hconclusion', ← hid, ← hname', ← hsha', ← htext]
    · cases h
  · cases h

namespace CheckRunStore

variable {s s' : CheckRunStore}

/-- The columns of the unique index. -/
def indexKey (run : StoredCheckRun) : ℕ × ℕ :=
  (run.submissionId, run.externalId)

/-- The primary key and the unique index of the table. -/
structure Indexed (s : CheckRunStore) : Prop where
  ids : Keyed (fun run => run.id) s.runs s.nextId
  unique : (s.runs.map indexKey).Nodup

theorem indexed_empty : ({} : CheckRunStore).Indexed :=
  ⟨.empty _ _, by simp⟩

/-! ## Upserts -/

variable {run : StoredCheckRun} {submissionId : ℕ} {now : Time} {runs : List CheckRunAttributes}
  {imported : List StoredCheckRun} {submission : Submission}
  {result : Except String (List StoredCheckRun)}

theorem Indexed.saved_update (h : s.Indexed) {old : StoredCheckRun} (hold : old ∈ s.runs)
    (hkey : indexKey run = indexKey old) :
    Saved indexKey s.runs run (updateAll (·.id == old.id) (fun _ => run) s.runs) := by
  refine Eq.mp (congrArg (Saved indexKey s.runs run) ?_) (Saved.of_updateAll h.unique hold hkey)
  refine List.map_congr_left fun other hother => ?_
  by_cases hid : other.id = old.id
  · simp [h.ids.eq_of_key hother hold hid]
  · have hother' : indexKey other ≠ indexKey old := by
      intro hsame
      exact hid (by rw [List.inj_on_of_nodup_map h.unique hother hold hsame])
    simp [hid, hother']

theorem upsertRun_eq_some (h : s.Indexed) {attributes : CheckRunAttributes}
    (hsaved : s.upsertRun parseUri submissionId now attributes = some (run, s')) :
    s'.Indexed ∧ run.attributes = attributes ∧
      (run.submissionId = submissionId ∧ run.fetchedAt = now) ∧
        Saved indexKey s.runs run s'.runs := by
  unfold upsertRun at hsaved
  split at hsaved
  · rename_i old hold
    obtain ⟨built, hbuilt, heq⟩ := Option.map_eq_some_iff.mp hsaved
    obtain ⟨rfl, rfl⟩ := Prod.mk.inj heq
    obtain ⟨hid, hsubmission, hattributes, hnow⟩ := buildRun_eq_some hbuilt
    have hmem := List.mem_of_find?_eq_some hold
    have hfound : old.submissionId = submissionId ∧ some old.externalId = attributes.id := by
      simpa using List.find?_some hold
    have hexternal : some built.externalId = attributes.id := by rw [← hattributes]; rfl
    have hkey : indexKey built = indexKey old := by
      have hsame := Option.some.inj (hexternal.trans hfound.2.symm)
      simp [indexKey, hsubmission, hfound.1, hsame]
    have hreplaced := h.saved_update hmem hkey
    refine ⟨⟨h.ids.updateAll fun row hrow => ?_, hreplaced.nodup h.unique⟩,
      hattributes, ⟨hsubmission, hnow⟩, hreplaced⟩
    rw [hid]
    exact (by simpa using hrow : row.id = old.id).symm
  · rename_i hnone
    obtain ⟨built, hbuilt, heq⟩ := Option.map_eq_some_iff.mp hsaved
    obtain ⟨rfl, rfl⟩ := Prod.mk.inj heq
    obtain ⟨hid, hsubmission, hattributes, hnow⟩ := buildRun_eq_some hbuilt
    have hexternal : some built.externalId = attributes.id := by rw [← hattributes]; rfl
    have hnew : ∀ old ∈ s.runs, indexKey old ≠ indexKey built := by
      intro old hold hkey
      have hother := List.find?_eq_none.mp hnone old hold
      obtain ⟨hsame, hext⟩ := Prod.mk.inj hkey
      exact hother (by simp [hsame, hsubmission, ← hexternal, hext])
    have hadded := Saved.of_append hnew
    exact ⟨⟨h.ids.append hid, hadded.nodup h.unique⟩, hattributes, ⟨hsubmission, hnow⟩, hadded⟩

/-- The rows of runs with distinct ids are saved beside each other. -/
theorem upsertRuns_eq_some (h : s.Indexed) (hdistinct : (runs.map (·.id)).Nodup)
    (hsaved : s.upsertRuns parseUri submissionId now runs = some (imported, s')) :
    imported.map StoredCheckRun.attributes = runs ∧
      (∀ run ∈ imported, run.submissionId = submissionId ∧ run.fetchedAt = now) ∧
        SavedAll indexKey s.runs imported s'.runs := by
  induction runs generalizing s imported with
  | nil =>
    cases hsaved
    exact ⟨rfl, by simp, .nil _ _⟩
  | cons attributes rest ih =>
    rw [List.map_cons, List.nodup_cons] at hdistinct
    obtain ⟨⟨run, middle⟩, hrun, hothers⟩ := Option.bind_eq_some_iff.mp hsaved
    obtain ⟨⟨others, last⟩, hrest, heq⟩ := Option.map_eq_some_iff.mp hothers
    obtain ⟨rfl, rfl⟩ := Prod.mk.inj heq
    obtain ⟨hmiddle, rfl, hown, hone⟩ := upsertRun_eq_some h hrun
    obtain ⟨rfl, howns, hsaves⟩ := ih hmiddle hdistinct.2 hrest
    refine ⟨rfl, List.forall_mem_cons.mpr ⟨hown, howns⟩, .cons hone hsaves ?_⟩
    -- Another row with the key of this one would have its external id.
    intro hkey
    obtain ⟨other, hother, hsame⟩ := List.mem_map.mp hkey
    apply hdistinct.1
    rw [List.map_map]
    refine List.mem_map.mpr ⟨other, hother, ?_⟩
    exact congrArg (fun key : ℕ × ℕ => some key.2) hsame

/-- The rows of a submission are the same up to their order. -/
def SameRows (id : ℕ) (s s' : CheckRunStore) : Prop :=
  (s'.runs.filter (·.submissionId == id)).Perm (s.runs.filter (·.submissionId == id))

theorem upsertRuns_keeps (h : s.Indexed)
    (hsaved : s.upsertRuns parseUri submissionId now runs = some (imported, s')) :
    s'.Indexed ∧ ∀ id, id ≠ submissionId → SameRows id s s' := by
  induction runs generalizing s imported with
  | nil =>
    cases hsaved
    exact ⟨h, fun id _ => .refl _⟩
  | cons attributes rest ih =>
    obtain ⟨⟨run, middle⟩, hrun, hothers⟩ := Option.bind_eq_some_iff.mp hsaved
    obtain ⟨⟨others, last⟩, hrest, heq⟩ := Option.map_eq_some_iff.mp hothers
    cases heq
    obtain ⟨hmiddle, -, ⟨hown, -⟩, hone⟩ := upsertRun_eq_some h hrun
    obtain ⟨hlast, hsame⟩ := ih hmiddle hrest
    refine ⟨hlast, fun id hid => (hsame id hid).trans (hone.filter_perm fun row hkey => ?_)⟩
    have hrow : row.submissionId = submissionId := (congrArg Prod.fst hkey).trans hown
    simpa [hrow] using hid.symm

/-! ## The transaction -/

/-- What a refresh of a commit with the given runs leaves behind. -/
structure Refreshed (submission : Submission) (now : Time) (runs : List CheckRunAttributes)
    (s : CheckRunStore) : Prop where
  shown : ((s.currentFor submission).map StoredCheckRun.attributes).Perm runs
  fetched : ∀ run ∈ s.currentFor submission, run.fetchedAt = now

theorem Indexed.prune (h : s.Indexed) (submission : Submission) (runs : List CheckRunAttributes) :
    (s.pruneObsoleteCurrentCommitRuns submission runs).Indexed :=
  ⟨h.ids.deleteAll _, nodup_map_deleteAll _ _ h.unique⟩

theorem current_iff :
    current submission run = true ↔
      run.submissionId = submission.id ∧ some run.headSha = submission.content.commitSha := by
  simp [current]

theorem headSha_of_shown {run : CheckRunAttributes}
    (h : run ∈ (s.currentFor submission).map StoredCheckRun.attributes) :
    run.headSha = submission.content.commitSha := by
  obtain ⟨row, hrow, rfl⟩ := List.mem_map.mp h
  exact (current_iff.mp (List.mem_filter.mp hrow).2).2

/-- Of the current rows only the imported ones are kept. -/
theorem currentFor_prune_perm (hall : SavedAll indexKey s.runs imported s'.runs)
    (hcurrent : ∀ run ∈ imported, current submission run = true) :
    ((s'.pruneObsoleteCurrentCommitRuns submission
      (imported.map StoredCheckRun.attributes)).currentFor submission).Perm imported := by
  unfold currentFor pruneObsoleteCurrentCommitRuns deleteAll
  rw [List.filter_filter]
  apply hall.filter_perm
  · intro run hrun
    have hlisted : ∃ other ∈ imported, other.attributes.id = some run.externalId :=
      ⟨run, hrun, rfl⟩
    simpa [hcurrent run hrun, List.ne_nil_of_mem hrun] using hlisted
  · intro run _ hkey
    by_cases hrun : current submission run = true
    · have hnot : ∀ other ∈ imported, other.attributes.id ≠ some run.externalId := by
        intro other hother hsame
        apply hkey
        refine List.mem_map.mpr ⟨other, hother, Prod.ext ?_ (Option.some.inj hsame)⟩
        exact (current_iff.mp (hcurrent other hother)).1.trans (current_iff.mp hrun).1.symm
      simpa [hrun] using fun _ => hnot
    · simp [hrun]

theorem importRuns_eq_ok (h : s.Indexed) {shown : List StoredCheckRun}
    (hdistinct : (runs.map (·.id)).Nodup)
    (hhead : ∀ run ∈ runs, run.headSha = submission.content.commitSha)
    (hok : s.importRuns parseUri submission now runs = (.ok shown, s')) :
    Refreshed submission now runs s' := by
  unfold importRuns at hok
  split at hok
  · simp at hok
  · rename_i imported saved hsaved
    obtain ⟨-, rfl⟩ := Prod.mk.inj hok
    obtain ⟨rfl, hown, hall⟩ := upsertRuns_eq_some h hdistinct hsaved
    have hcurrent : ∀ run ∈ imported, current submission run = true := by
      intro run hrun
      exact current_iff.mpr ⟨(hown run hrun).1, hhead _ (List.mem_map_of_mem hrun)⟩
    have hperm := currentFor_prune_perm hall hcurrent
    refine ⟨hperm.map _, ?_⟩
    intro run hrun
    exact (hown run (hperm.mem_iff.mp hrun)).2

/-- A refresh keeps the primary key, the unique index and the rows of other submissions, and the
table if it fails. -/
structure Keeps (submission : Submission) (result : Except String (List StoredCheckRun))
    (s s' : CheckRunStore) : Prop where
  indexed : s'.Indexed
  failed : (∃ message, result = .error message) → s' = s
  others : ∀ id, id ≠ submission.id → SameRows id s s'

theorem Keeps.refl (h : s.Indexed) : Keeps submission result s s :=
  ⟨h, fun _ => rfl, fun _ _ => .refl _⟩

theorem importRuns_keeps (h : s.Indexed)
    (himport : s.importRuns parseUri submission now runs = (result, s')) :
    Keeps submission result s s' := by
  unfold importRuns at himport
  split at himport
  · cases himport
    exact .refl h
  · rename_i hsaved
    cases himport
    obtain ⟨hindexed, hothers⟩ := upsertRuns_keeps h hsaved
    refine ⟨hindexed.prune submission runs, by simp, fun id hid => ?_⟩
    refine .trans (.of_eq ?_) (hothers id hid)
    simp only [pruneObsoleteCurrentCommitRuns, deleteAll, List.filter_filter]
    refine List.filter_congr fun row _ => ?_
    by_cases hrow : row.submissionId = id
    · simp [current, hrow, hid]
    · simp [hrow]

/-! ## The serializer -/

theorem recentFirst_perm (runs : List StoredCheckRun) : (recentFirst runs).Perm runs := by
  unfold recentFirst
  refine (List.perm_insertionSort _ _).trans ?_
  exact (List.perm_insertionSort _ _).trans (List.perm_insertionSort _ _)

/-- A page with a commit reference shows the current runs. -/
theorem collectionJson_runs_perm (h : (presence submission.content.commitSha).isSome) :
    (s.collectionJson submission).runs.Perm (s.currentFor submission) := by
  have hruns : (s.collectionJson submission).runs = recentFirst (s.currentFor submission) :=
    if_pos h
  rw [hruns]
  exact recentFirst_perm _

/-! ## The service -/

/-- The service stops before it asks GitHub, or does what it does with the runs of all pages. -/
theorem call_cases (parseUri : String → Option Uri) (github : String → ℕ → CheckRunResponse)
    (fuel : ℕ) (s : CheckRunStore) (submission : Submission) (now : Time) :
    (∃ message, s.call parseUri github fuel submission now = some (.error message, s)) ∨
      ∃ owner repository commitSha,
        repositoryCoordinates parseUri submission = .ok (some (owner, repository)) ∧
        submission.content.commitSha = some commitSha ∧
        s.call parseUri github fuel submission now =
          (fetchRuns (github (checkRunsUrl owner repository commitSha)) fuel 1 []).map fun
            | .error message => (.error message, s)
            | .ok runs => s.importRuns parseUri submission now runs := by
  unfold call
  cases hcoordinates : repositoryCoordinates parseUri submission with
  | error message => exact .inl ⟨message, rfl⟩
  | ok coordinates =>
    cases coordinates with
    | none => exact .inl ⟨_, rfl⟩
    | some coordinates =>
      cases hsha : presence submission.content.commitSha with
      | none => exact .inl ⟨_, rfl⟩
      | some commitSha =>
        exact .inr ⟨coordinates.1, coordinates.2, commitSha, rfl,
          presence_eq_some hsha, rfl⟩

theorem Indexed.nodup_externalId (h : s.Indexed) (submission : Submission) :
    ((s.currentFor submission).map (·.externalId)).Nodup := by
  have hkeys : (s.currentFor submission).map indexKey =
      ((s.currentFor submission).map (·.externalId)).map (submission.id, ·) := by
    rw [List.map_map]
    exact List.map_congr_left fun run hrun =>
      Prod.ext (current_iff.mp (List.mem_filter.mp hrun).2).1 rfl
  exact .of_map _ (hkeys ▸ h.unique.sublist (List.filter_sublist.map indexKey))

theorem call_keeps {github : String → ℕ → CheckRunResponse} {fuel : ℕ} (h : s.Indexed)
    (hcall : s.call parseUri github fuel submission now = some (result, s')) :
    Keeps submission result s s' := by
  rcases call_cases parseUri github fuel s submission now with
    ⟨message, herror⟩ | ⟨owner, repository, commitSha, -, -, heq⟩
  · cases herror.symm.trans hcall
    exact .refl h
  · obtain ⟨fetched, -, hresult⟩ := Option.map_eq_some_iff.mp (heq.symm.trans hcall)
    cases fetched with
    | error message =>
      cases hresult
      exact .refl h
    | ok runs => exact importRuns_keeps h hresult

/-- A call of the service and what it returns. -/
structure Refresh where
  github : String → ℕ → CheckRunResponse
  fuel : ℕ
  submission : Submission
  now : Time
  result : Except String (List StoredCheckRun)

def Refreshes (parseUri : String → Option Uri) (s : CheckRunStore) (refresh : Refresh)
    (s' : CheckRunStore) : Prop :=
  s.call parseUri refresh.github refresh.fuel refresh.submission refresh.now =
    some (refresh.result, s')

/-- A page shows each run once, and what it shows changes only by refreshes of its submission that
report success. -/
theorem page_kept_by_other_refreshes {t : CheckRunStore} {earlier later : List Refresh}
    (hreach : Run (Refreshes parseUri) {} earlier s) (hrun : Run (Refreshes parseUri) s later t)
    (submission : Submission) (hother : ∀ refresh ∈ later, refresh.submission.id = submission.id →
      ∃ message, refresh.result = .error message) :
    ((t.collectionJson submission).runs.map (·.externalId)).Nodup ∧
      (t.collectionJson submission).runs.Perm (s.collectionJson submission).runs := by
  have hstep : ∀ s refresh s', s.Indexed → Refreshes parseUri s refresh s' → s'.Indexed :=
    fun _ _ _ h hcall => (call_keeps h hcall).indexed
  have hindexed := hreach.invariant Indexed hstep indexed_empty
  have hsame : SameRows submission.id s t := by
    clear hreach
    induction hrun with
    | nil => exact .refl _
    | cons hstep _ ih =>
      have hkeeps := call_keeps hindexed hstep
      rw [List.forall_mem_cons] at hother
      refine (ih hother.2 hkeeps.indexed).trans ?_
      rename_i refresh _ _ _ _
      by_cases hid : submission.id = refresh.submission.id
      · rw [hkeeps.failed (hother.1 hid.symm)]
      · exact hkeeps.others _ hid
  have hshown := (hrun.invariant Indexed hstep hindexed).nodup_externalId submission
  have hcurrent : (t.currentFor submission).Perm (s.currentFor submission) := by
    have hfilter := hsame.filter fun run => some run.headSha == submission.content.commitSha
    simp only [List.filter_filter, Bool.and_comm] at hfilter
    exact hfilter
  by_cases hsha : (presence submission.content.commitSha).isSome
  · have hpage := collectionJson_runs_perm (s := t) hsha
    exact ⟨(hpage.map _).nodup_iff.mpr hshown,
      hpage.trans (hcurrent.trans (collectionJson_runs_perm hsha).symm)⟩
  · simp [collectionJson, hsha]

/-- A refresh ends after finitely many requests. If it reports success, the runs that are shown are
those of GitHub exactly if the submission has the full reference of the commit. -/
theorem call_shows_runs_of_commit_iff {github : String → ℕ → CheckRunResponse}
    {pages : List (List CheckRunAttributes)} {total : ℕ} (h : s.Indexed) (submission : Submission)
    (now : Time) (hserves : ∀ owner repository commitSha,
      repositoryCoordinates parseUri submission = .ok (some (owner, repository)) →
        submission.content.commitSha = some commitSha →
          Serves pages total (github (checkRunsUrl owner repository commitSha)))
    (htotal : pages.flatten.length ≤ total) (hdistinct : (pages.flatten.map (·.id)).Nodup) :
    ∃ requests, ∀ fuel, requests ≤ fuel → ∃ result s',
      s.call parseUri github fuel submission now = some (result, s') ∧
        ∀ shown, result = .ok shown →
          ((((s'.currentFor submission).map StoredCheckRun.attributes).Perm pages.flatten ∧
              (∀ run ∈ s'.currentFor submission, run.fetchedAt = now)) ↔
            ∀ run ∈ pages.flatten, run.headSha = submission.content.commitSha) := by
  refine ⟨total + 1, fun fuel hfuel => ?_⟩
  rcases call_cases parseUri github fuel s submission now with
    ⟨message, herror⟩ | ⟨owner, repository, commitSha, hcoordinates, hsha, hcall⟩
  · exact ⟨_, _, herror, fun shown hok => by cases hok⟩
  · have hpages := hserves owner repository commitSha hcoordinates hsha
    have hrequests : total - ([] : List CheckRunAttributes).length < fuel := by
      rw [List.length_nil]
      omega
    obtain ⟨fetched, hfetched⟩ := exists_fetchRuns_eq hpages 1 hrequests
    rw [hfetched, Option.map_some] at hcall
    cases fetched with
    | error message => exact ⟨_, _, hcall, fun shown hok => by cases hok⟩
    | ok runs =>
      obtain rfl := fetchRuns_eq_flatten hpages htotal hfetched
      refine ⟨_, _, hcall, fun shown hok => ?_⟩
      have himport : s.importRuns parseUri submission now pages.flatten =
          (.ok shown, (s.importRuns parseUri submission now pages.flatten).2) := Prod.ext hok rfl
      constructor
      · rintro ⟨hperm, -⟩ run hrun
        exact headSha_of_shown (hperm.mem_iff.mpr hrun)
      · intro hhead
        have hrefreshed := importRuns_eq_ok h hdistinct hhead himport
        exact ⟨hrefreshed.shown, hrefreshed.fetched⟩

/-! ## A full and a short commit reference -/

def exampleParseUri (text : String) : Option Uri :=
  if text = "https://github.com/student/project" then
    some { scheme := some "https", host := some "github.com", path := "/student/project" }
  else none

def fullSha : String :=
  "6dcb09b5b57875f334f61aebed695e2e4193db5e"

def submissionOf (commitSha : String) : Submission where
  id := 1
  userId := 1
  contentBlockId := 7
  content.repoUrl := some "https://github.com/student/project"
  content.commitSha := some commitSha

def lintRun : CheckRunAttributes where
  id := some 81
  name := some "lint"
  headSha := some fullSha
  status := some "completed"
  conclusion := some "success"

def testRun : CheckRunAttributes where
  id := some 82
  name := some "test"
  headSha := some fullSha
  status := some "in_progress"

/-- Two runs on two pages, for every address. -/
def examplePages (_ : String) (page : ℕ) : CheckRunResponse :=
  .page ([[lintRun], [testRun]].getD (page - 1) []) (some 2)

theorem serves_examplePages (url : String) :
    Serves [[lintRun], [testRun]] 2 (examplePages url) := by
  intro page runs totalCount hanswer
  obtain ⟨rfl, rfl⟩ := CheckRunResponse.page.inj hanswer
  exact ⟨rfl, rfl⟩

theorem full_sha_shows_both_runs :
    (∃ shown s', ({} : CheckRunStore).call exampleParseUri examplePages 3 (submissionOf fullSha) 9 =
      some (.ok shown, s')) ∧
    ∃ requests, ∀ fuel, requests ≤ fuel → ∃ result s',
      ({} : CheckRunStore).call exampleParseUri examplePages fuel (submissionOf fullSha) 9 =
        some (result, s') ∧
        ∀ shown, result = .ok shown →
          ((s'.currentFor (submissionOf fullSha)).map StoredCheckRun.attributes).Perm
              [[lintRun], [testRun]].flatten ∧
            ∀ run ∈ s'.currentFor (submissionOf fullSha), run.fetchedAt = 9 := by
  refine ⟨⟨_, _, rfl⟩, ?_⟩
  obtain ⟨requests, hends⟩ := call_shows_runs_of_commit_iff indexed_empty (submissionOf fullSha) 9
    (fun _ _ _ _ _ => serves_examplePages _) (by decide) (by decide)
  refine ⟨requests, fun fuel hfuel => ?_⟩
  obtain ⟨result, s', hcall, hshown⟩ := hends fuel hfuel
  exact ⟨result, s', hcall, fun shown hok => (hshown shown hok).mpr (by decide +kernel)⟩

/-- The runs of a commit that the student gave by its short SHA are stored and not shown. -/
theorem short_sha_shows_no_runs :
    ∃ shown s',
      ({} : CheckRunStore).call exampleParseUri examplePages 3 (submissionOf "6dcb09b") 9 =
        some (.ok shown, s') ∧
      Serves [[lintRun], [testRun]] 2 (examplePages (checkRunsUrl "student" "project" "6dcb09b")) ∧
      shown.length = 2 ∧ s'.currentFor (submissionOf "6dcb09b") = [] :=
  ⟨_, _, rfl, serves_examplePages _, by decide +kernel, by decide +kernel⟩

/-- The checks of a submission are refreshed, and then those of another one. -/
theorem page_kept_by_refresh_of_another :
    ∃ earlier later s t, Run (Refreshes exampleParseUri) {} earlier s ∧
      Run (Refreshes exampleParseUri) s later t ∧ later ≠ [] ∧
      ((s.collectionJson (submissionOf fullSha)).runs.length = 2 ∧
        ((t.collectionJson (submissionOf fullSha)).runs.map (·.externalId)).Nodup ∧
        (t.collectionJson (submissionOf fullSha)).runs.Perm
          (s.collectionJson (submissionOf fullSha)).runs) := by
  obtain ⟨first, s, second, t, hfirst, hsecond, hlength⟩ : ∃ first s second t,
      ({} : CheckRunStore).call exampleParseUri examplePages 3 (submissionOf fullSha) 9 =
        some (first, s) ∧
      s.call exampleParseUri examplePages 3 { submissionOf fullSha with id := 2 } 10 =
        some (second, t) ∧ (s.collectionJson (submissionOf fullSha)).runs.length = 2 :=
    ⟨_, _, _, _, rfl, rfl, by decide +kernel⟩
  have hearlier : Run (Refreshes exampleParseUri) {} [⟨_, _, _, _, first⟩] s :=
    .cons hfirst (.nil s)
  have hlater : Run (Refreshes exampleParseUri) s [⟨_, _, _, _, second⟩] t :=
    .cons hsecond (.nil t)
  exact ⟨_, _, s, t, hearlier, hlater, by simp, hlength,
    page_kept_by_other_refreshes hearlier hlater _ (by simp [submissionOf])⟩

end CheckRunStore

end LearningPlatform
