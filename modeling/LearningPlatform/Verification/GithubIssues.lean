import LearningPlatform.Model.GithubIssues
import LearningPlatform.Shared.Run
import Mathlib.Data.List.Pairwise

/-! # GitHub issues and the grades of a student's work

The service finds the issue of a student's work through the links in the submission rows, and it
never opens a closed issue again. -/

namespace LearningPlatform

open Shared

namespace IssueStore

variable {s : IssueStore}

/-! ## Links -/

/-- The row belongs to the student and the block of the issue. -/
def Concerns (issue : GithubIssue) (row : Submission) : Prop :=
  issue.userId = row.userId ∧ issue.contentBlockId = row.contentBlockId

/-- Issues with urls of their own, for different work. -/
def Apart (first second : GithubIssue) : Prop :=
  first.url ≠ second.url ∧
    ¬ (first.userId = second.userId ∧ first.contentBlockId = second.contentBlockId)

instance : Std.Symm Apart where
  symm _ _ h := ⟨h.1.symm, fun hsame => h.2 ⟨hsame.1.symm, hsame.2.symm⟩⟩

/-- Links lead to issues of the same work, every issue is linked, and a student has at most one
issue for a block. -/
structure Links (s : IssueStore) : Prop where
  ids : Keyed Submission.id s.submissions s.nextId
  present : ∀ issue ∈ s.issues, presence (some issue.url) = some issue.url
  apart : s.issues.Pairwise Apart
  known : ∀ row ∈ s.submissions, row.content.githubIssueUrl = none ∨
    row.content.githubIssueUrl = some "" ∨
      ∃ issue ∈ s.issues, row.content.githubIssueUrl = some issue.url ∧ Concerns issue row
  linked : ∀ issue ∈ s.issues, ∃ row ∈ s.submissions,
    row.content.githubIssueUrl = some issue.url ∧ Concerns issue row

theorem ne_empty_of_present {url : String} (h : presence (some url) = some url) : url ≠ "" := by
  rintro rfl
  simp [presence, blank?] at h

namespace Links

theorem updateRows (h : s.Links) {p : Submission → Bool} {f : Submission → Submission}
    (hid : ∀ row, (f row).id = row.id) (huser : ∀ row, (f row).userId = row.userId)
    (hblock : ∀ row, (f row).contentBlockId = row.contentBlockId)
    (hurl : ∀ row, (f row).content.githubIssueUrl = row.content.githubIssueUrl)
    {gradings : List (ℕ × ℕ × Option Grade)} :
    ({ s with submissions := updateAll p f s.submissions, gradings } : IssueStore).Links where
  ids := h.ids.updateAll fun row _ => hid row
  present := h.present
  apart := h.apart
  known row hrow := by
    rcases mem_updateAll.mp hrow with ⟨old, hold, -, rfl⟩ | ⟨hmem, -⟩
    · have hknown := h.known old hold
      simpa only [Concerns, hurl, huser, hblock] using hknown
    · exact h.known row hmem
  linked issue hissue := by
    refine exists_mem_updateAll (fun row _ _ hlinked => ?_) (h.linked issue hissue)
    simpa only [Concerns, hurl, huser, hblock] using hlinked

theorem updateIssues (h : s.Links) {p : GithubIssue → Bool} {f : GithubIssue → GithubIssue}
    (hurl : ∀ issue, (f issue).url = issue.url) (huser : ∀ issue, (f issue).userId = issue.userId)
    (hblock : ∀ issue, (f issue).contentBlockId = issue.contentBlockId) :
    ({ s with issues := updateAll p f s.issues } : IssueStore).Links := by
  have hkeeps : ∀ issue, ∃ issue', (if p issue then f issue else issue) = issue' ∧
      issue'.url = issue.url ∧ issue'.userId = issue.userId ∧
      issue'.contentBlockId = issue.contentBlockId := by
    intro issue
    cases p issue with
    | true => exact ⟨f issue, rfl, hurl issue, huser issue, hblock issue⟩
    | false => exact ⟨issue, rfl, rfl, rfl, rfl⟩
  refine ⟨h.ids, ?_, ?_, ?_, ?_⟩
  · intro issue hissue
    obtain ⟨old, hold, rfl⟩ := List.mem_map.mp hissue
    obtain ⟨issue', heq, hsame, -, -⟩ := hkeeps old
    rw [heq, hsame]
    exact h.present old hold
  · refine List.pairwise_map.mpr (h.apart.imp fun {first second} hapart => ?_)
    obtain ⟨first', hfirst, hfirstUrl, hfirstUser, hfirstBlock⟩ := hkeeps first
    obtain ⟨second', hsecond, hsecondUrl, hsecondUser, hsecondBlock⟩ := hkeeps second
    rw [hfirst, hsecond, Apart, hfirstUrl, hsecondUrl, hfirstUser, hsecondUser, hfirstBlock,
      hsecondBlock]
    exact hapart
  · intro row hrow
    rcases h.known row hrow with hnone | hempty | ⟨issue, hissue, hlink, huser', hblock'⟩
    · exact .inl hnone
    · exact .inr (.inl hempty)
    · obtain ⟨issue', heq, hsame, hsameUser, hsameBlock⟩ := hkeeps issue
      refine .inr (.inr ⟨issue', ?_, by rw [hlink, hsame], hsameUser.trans huser',
        hsameBlock.trans hblock'⟩)
      exact List.mem_map.mpr ⟨issue, hissue, heq⟩
  · intro issue hissue
    obtain ⟨old, hold, rfl⟩ := List.mem_map.mp hissue
    obtain ⟨issue', heq, hsame, hsameUser, hsameBlock⟩ := hkeeps old
    obtain ⟨row, hrow, hlink, huser', hblock'⟩ := h.linked old hold
    rw [heq]
    exact ⟨row, hrow, by rw [hlink, hsame], hsameUser.trans huser', hsameBlock.trans hblock'⟩

/-! ## The issue that the service finds -/

variable {row submission : Submission}

theorem concerns_of_url (h : s.Links) (hrow : row ∈ s.submissions) {url : String}
    (hurl : row.content.githubIssueUrl = some url) (hne : url ≠ "") :
    ∃ issue ∈ s.issues, issue.url = url ∧ Concerns issue row := by
  rcases h.known row hrow with hnone | hempty | ⟨issue, hissue, hlink, hconcerns⟩
  · simp [hurl] at hnone
  · exact absurd (by simpa [hurl] using hempty) hne
  · exact ⟨issue, hissue, by simpa [hurl] using hlink.symm, hconcerns⟩

theorem mem_linkedRows :
    row ∈ (s.submissions.filter fun row =>
      row.userId == submission.userId && row.contentBlockId == submission.contentBlockId &&
        row.content.githubIssueUrl != none && row.content.githubIssueUrl != some "") ↔
      row ∈ s.submissions ∧ row.userId = submission.userId ∧
        row.contentBlockId = submission.contentBlockId ∧
          row.content.githubIssueUrl ≠ none ∧ row.content.githubIssueUrl ≠ some "" := by
  simp only [List.mem_filter, Bool.and_eq_true, beq_iff_eq, bne_iff_ne]
  tauto

theorem issueUrl_eq_some (h : s.Links) (hrow : submission ∈ s.submissions) {url : String}
    (hurl : s.issueUrl submission = some url) :
    ∃ issue ∈ s.issues, issue.url = url ∧ Concerns issue submission := by
  unfold issueUrl at hurl
  rcases Option.or_eq_some_iff.mp hurl with hown | ⟨-, hprior⟩
  · obtain ⟨hlink, hpresent⟩ := Option.filter_eq_some_iff.mp hown
    refine h.concerns_of_url hrow hlink ?_
    rintro rfl
    simp [blank?] at hpresent
  · obtain ⟨hfound, -⟩ := Option.filter_eq_some_iff.mp hprior
    obtain ⟨row, hlatest, hlink⟩ := Option.bind_eq_some_iff.mp hfound
    obtain ⟨hmem, huser, hblock, -, hne⟩ := mem_linkedRows.mp (mem_of_latest? hlatest)
    obtain ⟨issue, hissue, heq, hconcerns⟩ := h.concerns_of_url hmem hlink
      fun hempty => hne (by rw [hlink, hempty])
    exact ⟨issue, hissue, heq, hconcerns.1.trans huser, hconcerns.2.trans hblock⟩

theorem issueUrl_eq_none (h : s.Links) (hurl : s.issueUrl submission = none) {issue : GithubIssue}
    (hissue : issue ∈ s.issues) : ¬ Concerns issue submission := by
  rintro ⟨huser, hblock⟩
  obtain ⟨row, hrow, hlink, hrowUser, hrowBlock⟩ := h.linked issue hissue
  have hne := ne_empty_of_present (h.present issue hissue)
  have hmem := mem_linkedRows.mpr ⟨hrow, hrowUser.symm.trans huser, hrowBlock.symm.trans hblock,
    by simp [hlink], by simpa [hlink] using hne⟩
  obtain ⟨-, hprior⟩ := Option.or_eq_none_iff.mp hurl
  cases hlatest : latest? (·.createdAt) (s.submissions.filter fun row =>
      row.userId == submission.userId && row.contentBlockId == submission.contentBlockId &&
        row.content.githubIssueUrl != none && row.content.githubIssueUrl != some "") with
  | none => simp [latest?_eq_none.mp hlatest] at hmem
  | some found =>
    -- Every row that is selected links an issue, whose url is present.
    obtain ⟨hfound, -, -, hfoundLink, hfoundNe⟩ := mem_linkedRows.mp (mem_of_latest? hlatest)
    obtain ⟨url, hfoundUrl⟩ := Option.ne_none_iff_exists'.mp hfoundLink
    obtain ⟨other, hother, rfl, -⟩ := h.concerns_of_url hfound hfoundUrl
      fun hempty => hfoundNe (by rw [hfoundUrl, hempty])
    have hpresent := h.present other hother
    rw [findPriorIssueUrl, hlatest, Option.bind_some, hfoundUrl, hpresent] at hprior
    cases hprior

/-! ## New issues and new links -/

theorem eq_of_concerns (h : s.Links) {first second : GithubIssue} (hfirst : first ∈ s.issues)
    (hsecond : second ∈ s.issues) (hfirstRow : Concerns first row)
    (hsecondRow : Concerns second row) : first = second := by
  by_contra hne
  apply (h.apart.forall hfirst hsecond hne).2
  exact ⟨hfirstRow.1.trans hsecondRow.1.symm, hfirstRow.2.trans hsecondRow.2.symm⟩

theorem eq_of_url (h : s.Links) {first second : GithubIssue} (hfirst : first ∈ s.issues)
    (hsecond : second ∈ s.issues) (hurl : first.url = second.url) : first = second := by
  by_contra hne
  exact (h.apart.forall hfirst hsecond hne).1 hurl

theorem createIssue (h : s.Links) (hrow : submission ∈ s.submissions) {issue : GithubIssue}
    (hconcerns : Concerns issue submission) (hnone : ∀ old ∈ s.issues, ¬ Concerns old submission)
    (hpresent : presence (some issue.url) = some issue.url)
    (hfresh : ∀ old ∈ s.issues, old.url ≠ issue.url) :
    ((s.createIssue issue).linkIssue submission.id (some issue.url)).Links where
  ids := h.ids.updateAll fun _ _ => rfl
  present other hother := by
    rcases List.mem_append.mp hother with hold | hnew
    · exact h.present other hold
    · rwa [List.mem_singleton.mp hnew]
  apart := by
    refine List.pairwise_append.mpr ⟨h.apart, by simp, ?_⟩
    intro old hold new hnew
    rw [List.mem_singleton.mp hnew]
    refine ⟨hfresh old hold, fun hsame => hnone old hold ?_⟩
    exact ⟨hsame.1.trans hconcerns.1, hsame.2.trans hconcerns.2⟩
  known row hmem := by
    rcases mem_updateAll.mp hmem with ⟨old, hold, hid, rfl⟩ | ⟨hold, -⟩
    · obtain rfl : old = submission := h.ids.eq_of_key hold hrow (by simpa using hid)
      exact .inr (.inr ⟨issue, List.mem_append_right _ (by simp), rfl, hconcerns⟩)
    · rcases h.known row hold with hnone | hempty | ⟨other, hother, hlink⟩
      · exact .inl hnone
      · exact .inr (.inl hempty)
      · exact .inr (.inr ⟨other, List.mem_append_left _ hother, hlink⟩)
  linked other hother := by
    rcases List.mem_append.mp hother with hold | hnew
    · obtain ⟨row, hmem, hlink, hotherRow⟩ := h.linked other hold
      refine ⟨row, mem_updateAll.mpr (.inr ⟨hmem, ?_⟩), hlink, hotherRow⟩
      -- The row of an older issue is not that of the submission, which has none.
      by_contra hid
      obtain rfl : row = submission := h.ids.eq_of_key hmem hrow (by simpa using hid)
      exact hnone other hold hotherRow
    · rw [List.mem_singleton.mp hnew]
      exact ⟨{ submission with content.githubIssueUrl := some issue.url },
        mem_updateAll.mpr (.inl ⟨submission, hrow, by simp, rfl⟩), rfl, hconcerns⟩

end Links

/-! ## Conditions of a step -/

/-- A link that is empty or leads to the issue of the same work. -/
def OwnLink (s : IssueStore) (userId contentBlockId : ℕ) (url : Option String) : Prop :=
  url = none ∨ url = some "" ∨ ∃ issue ∈ s.issuesFor userId contentBlockId, url = some issue.url

instance (s : IssueStore) (userId contentBlockId : ℕ) (url : Option String) :
    Decidable (s.OwnLink userId contentBlockId url) :=
  inferInstanceAs (Decidable (_ ∨ _ ∨ ∃ issue ∈ s.issuesFor userId contentBlockId, _))

/-- The service has what it needs to call GitHub. -/
def IssueSetting.Configured (setting : IssueSetting) : Prop :=
  (presence setting.token).isSome ∧ (presence setting.githubUsername).isSome ∧ setting.repo.isSome

instance (setting : IssueSetting) : Decidable (IssueSetting.Configured setting) :=
  inferInstanceAs (Decidable (_ ∧ _ ∧ _))

/-- GitHub gives a created issue a url of its own. -/
def Succeeds (s : IssueStore) : IssueEvent → Prop
  | .grade _ _ _ _ createdUrl =>
    presence (some createdUrl) = some createdUrl ∧ ∀ issue ∈ s.issues, issue.url ≠ createdUrl
  | _ => True

/-- Entered links are links of the same work and replace none; a redo is requested only while the
issue is open, and an open issue is passed with the service configured. -/
def Orderly (s : IssueStore) : IssueEvent → Prop
  | .submit userId contentBlockId url _ => s.OwnLink userId contentBlockId url
  | .update id url => ∀ row ∈ s.submissions, row.id = id →
      s.OwnLink row.userId row.contentBlockId url ∧
        ∀ issue ∈ s.issues, row.content.githubIssueUrl = some issue.url → url = some issue.url
  | .grade id grade _ setting _ => ∀ row ∈ s.submissions, row.id = id →
      ∀ issue ∈ s.issuesFor row.userId row.contentBlockId,
        if grade = some .R then issue.isOpen = true
        else issue.isOpen = true → IssueSetting.Configured setting

instance (s : IssueStore) : (e : IssueEvent) → Decidable (s.Succeeds e)
  | .submit .. => .isTrue trivial
  | .update .. => .isTrue trivial
  | .grade .. => inferInstanceAs (Decidable (_ ∧ ∀ issue ∈ s.issues, _))

instance (s : IssueStore) : (e : IssueEvent) → Decidable (s.Orderly e)
  | .submit userId contentBlockId url _ =>
    inferInstanceAs (Decidable (s.OwnLink userId contentBlockId url))
  | .update .. => inferInstanceAs (Decidable (∀ row ∈ s.submissions, _ → _ ∧ ∀ issue ∈ s.issues, _))
  | .grade .. => inferInstanceAs (Decidable (∀ row ∈ s.submissions, _ → ∀ issue ∈ _, ite _ _ _))

/-! ## Steps -/

variable {userId contentBlockId : ℕ} {url : Option String}

theorem mem_issuesFor {issue : GithubIssue} :
    issue ∈ s.issuesFor userId contentBlockId ↔
      issue ∈ s.issues ∧ issue.userId = userId ∧ issue.contentBlockId = contentBlockId := by
  simp [issuesFor]

theorem mem_issuesFor_row {row : Submission} {issue : GithubIssue} :
    issue ∈ s.issuesFor row.userId row.contentBlockId ↔ issue ∈ s.issues ∧ Concerns issue row :=
  mem_issuesFor

theorem OwnLink.known (h : s.OwnLink userId contentBlockId url) : url = none ∨ url = some "" ∨
      ∃ issue ∈ s.issues, url = some issue.url ∧
        issue.userId = userId ∧ issue.contentBlockId = contentBlockId := by
  rcases h with hnone | hempty | ⟨issue, hissue, hurl⟩
  · exact .inl hnone
  · exact .inr (.inl hempty)
  · obtain ⟨hmem, huser, hblock⟩ := mem_issuesFor.mp hissue
    exact .inr (.inr ⟨issue, hmem, hurl, huser, hblock⟩)

/-- An issue is open exactly if the last grade of its work is a redo. -/
def Settled (s : IssueStore) : Prop :=
  ∀ issue ∈ s.issues,
    issue.isOpen = true ↔ s.lastGrade issue.userId issue.contentBlockId = some (some .R)

theorem Links.submit (h : s.Links) {now : Time} (hurl : s.OwnLink userId contentBlockId url) :
    (s.step (.submit userId contentBlockId url now)).Links where
  ids := h.ids.append rfl
  present := h.present
  apart := h.apart
  known row hrow := by
    rcases List.mem_append.mp hrow with hold | hnew
    · exact h.known row hold
    · rw [List.mem_singleton.mp hnew]
      exact hurl.known
  linked issue hissue := by
    obtain ⟨row, hrow, hlink⟩ := h.linked issue hissue
    exact ⟨row, List.mem_append_left _ hrow, hlink⟩

theorem Links.update (h : s.Links) {id : ℕ} (hurl : s.Orderly (.update id url)) :
    (s.linkIssue id url).Links where
  ids := h.ids.updateAll fun _ _ => rfl
  present := h.present
  apart := h.apart
  known row hrow := by
    rcases mem_updateAll.mp hrow with ⟨old, hold, hid, rfl⟩ | ⟨hold, -⟩
    · exact (hurl old hold (by simpa using hid)).1.known
    · exact h.known row hold
  linked issue hissue := by
    refine exists_mem_updateAll (fun row hrow hid hlinked => ?_) (h.linked issue hissue)
    exact ⟨(hurl row hrow (by simpa using hid)).2 issue hissue hlinked.1, hlinked.2⟩

/-! ## Gradings -/

theorem lastGrade_append {u b : ℕ} {grade : Option Grade} {submissions : List Submission} :
    ({ s with submissions, gradings := s.gradings ++ [(userId, contentBlockId, grade)] } :
        IssueStore).lastGrade u b =
      if userId = u ∧ contentBlockId = b then some grade else s.lastGrade u b := by
  by_cases hsame : userId = u ∧ contentBlockId = b
  · simp [lastGrade, List.filter_append, hsame]
  · have hfilter : (userId == u && contentBlockId == b) = false := by simpa using hsame
    simp [lastGrade, List.filter_append, hsame, hfilter]

/-- What holds of the store when the service is called for a graded submission: the issue of its
work is yet to follow the grade. -/
structure Graded (s : IssueStore) (submission : Submission) (grade : Option Grade)
    (setting : IssueSetting) : Prop where
  links : s.Links
  mem : submission ∈ s.submissions
  last : s.lastGrade submission.userId submission.contentBlockId = some grade
  others : ∀ issue ∈ s.issues, ¬ Concerns issue submission →
    (issue.isOpen = true ↔ s.lastGrade issue.userId issue.contentBlockId = some (some .R))
  own : ∀ issue ∈ s.issues, Concerns issue submission →
    if grade = some .R then issue.isOpen = true
    else issue.isOpen = true → IssueSetting.Configured setting

namespace Graded

variable {submission : Submission} {grade : Option Grade} {setting : IssueSetting}

theorem last_of_concerns (h : s.Graded submission grade setting) {issue : GithubIssue}
    (hconcerns : Concerns issue submission) :
    s.lastGrade issue.userId issue.contentBlockId = some grade := by
  rw [hconcerns.1, hconcerns.2, h.last]

/-- A redo leaves the open issue open, and its absence to `create_issue`. -/
theorem settled_of_redo (h : s.Graded submission (some .R) setting) : s.Settled := by
  intro issue hissue
  by_cases hconcerns : Concerns issue submission
  · have hopen := h.own issue hissue hconcerns
    rw [if_pos rfl] at hopen
    simp [hopen, h.last_of_concerns hconcerns]
  · exact h.others issue hissue hconcerns

theorem settled_of_closed (h : s.Graded submission grade setting) (hgrade : grade ≠ some .R)
    (hclosed : ∀ issue ∈ s.issues, Concerns issue submission → issue.isOpen = false) :
    s.Settled := by
  intro issue hissue
  by_cases hconcerns : Concerns issue submission
  · simp [hclosed issue hissue hconcerns, h.last_of_concerns hconcerns, hgrade]
  · exact h.others issue hissue hconcerns

theorem addComment (h : s.Graded submission (some .R) setting) (url body : String) :
    (s.addComment url body).Links ∧ (s.addComment url body).Settled := by
  refine ⟨h.links.updateIssues (fun _ => rfl) (fun _ => rfl) (fun _ => rfl), ?_⟩
  intro issue hissue
  rcases mem_updateAll.mp hissue with ⟨old, hold, -, rfl⟩ | ⟨hold, -⟩
  · exact h.settled_of_redo old hold
  · exact h.settled_of_redo issue hold

theorem createIssue (h : s.Graded submission (some .R) setting) {issue : GithubIssue}
    (hconcerns : Concerns issue submission) (hopen : issue.isOpen = true)
    (hnone : s.issueUrl submission = none) (hpresent : presence (some issue.url) = some issue.url)
    (hfresh : ∀ old ∈ s.issues, old.url ≠ issue.url) :
    ((s.createIssue issue).linkIssue submission.id (some issue.url)).Links ∧
      ((s.createIssue issue).linkIssue submission.id (some issue.url)).Settled := by
  refine ⟨h.links.createIssue h.mem hconcerns
    (fun old hold => h.links.issueUrl_eq_none hnone hold) hpresent hfresh, ?_⟩
  intro other hother
  rcases List.mem_append.mp hother with hold | hnew
  · exact h.settled_of_redo other hold
  · have hlast := h.last_of_concerns hconcerns
    rw [List.mem_singleton.mp hnew]
    exact iff_of_true hopen hlast

theorem closeIssue (h : s.Graded submission grade setting) (hgrade : grade ≠ some .R)
    {url : String} (hurl : s.issueUrl submission = some url) (comment : String) :
    (s.closeIssue url comment).Links ∧ (s.closeIssue url comment).Settled := by
  refine ⟨h.links.updateIssues (fun _ => rfl) (fun _ => rfl) (fun _ => rfl), ?_⟩
  obtain ⟨found, hfound, rfl, hfoundConcerns⟩ := h.links.issueUrl_eq_some h.mem hurl
  intro issue hissue
  rcases mem_updateAll.mp hissue with ⟨old, hold, hsame, rfl⟩ | ⟨hold, hother⟩
  · -- The closed issue is the one found, and its work has the grade just given.
    obtain rfl : old = found := h.links.eq_of_url hold hfound (by simpa using hsame)
    have hlast := h.last_of_concerns hfoundConcerns
    refine iff_of_false (by simp) fun hredo => hgrade ?_
    exact Option.some.inj (hlast.symm.trans hredo)
  · refine h.others issue hold fun hconcerns => ?_
    obtain rfl : issue = found := h.links.eq_of_concerns hold hfound hconcerns hfoundConcerns
    simp at hother

theorem handleGrade (h : s.Graded submission grade setting) {feedback : Option String}
    {createdUrl : String} (hpresent : presence (some createdUrl) = some createdUrl)
    (hfresh : ∀ issue ∈ s.issues, issue.url ≠ createdUrl) :
    (s.handleGrade submission grade feedback setting createdUrl).Links ∧
      (s.handleGrade submission grade feedback setting createdUrl).Settled := by
  by_cases hgrade : grade = some .R
  · subst hgrade
    unfold IssueStore.handleGrade
    split
    · rw [if_pos rfl, handleRedoGrade]
      split
      · exact h.addComment _ _
      · rename_i hnone
        split
        · exact ⟨h.links, h.settled_of_redo⟩
        · exact h.createIssue ⟨rfl, rfl⟩ rfl hnone hpresent hfresh
    · exact ⟨h.links, h.settled_of_redo⟩
  · unfold IssueStore.handleGrade
    split
    · rw [if_neg hgrade]
      split
      · rename_i hnone
        refine ⟨h.links, h.settled_of_closed hgrade fun issue hissue hconcerns => ?_⟩
        exact absurd hconcerns (h.links.issueUrl_eq_none hnone hissue)
      · rename_i hurl
        exact h.closeIssue hgrade hurl _
    · rename_i hmissing
      refine ⟨h.links, h.settled_of_closed hgrade fun issue hissue hconcerns => ?_⟩
      have hown := h.own issue hissue hconcerns
      rw [if_neg hgrade] at hown
      by_contra hopen
      obtain ⟨htoken, huser, hrepo⟩ := hown (by simpa using hopen)
      obtain ⟨token, htoken⟩ := Option.isSome_iff_exists.mp htoken
      obtain ⟨owner, huser⟩ := Option.isSome_iff_exists.mp huser
      obtain ⟨repo, hrepo⟩ := Option.isSome_iff_exists.mp hrepo
      exact hmissing token owner repo htoken huser hrepo

end Graded

theorem graded_of_grade (hlinks : s.Links) (hsettled : s.Settled) {id : ℕ} {grade : Option Grade}
    {feedback : Option String} {setting : IssueSetting} {createdUrl : String}
    (horderly : s.Orderly (.grade id grade feedback setting createdUrl)) {submission : Submission}
    (hfind : s.submissions.find? (·.id == id) = some submission) :
    ({ s with
        submissions := updateAll (·.id == id) (fun row => { row with grade, feedback })
          s.submissions
        gradings := s.gradings ++ [(submission.userId, submission.contentBlockId, grade)] } :
      IssueStore).Graded { submission with grade, feedback } grade setting := by
  have hid : submission.id = id := by simpa using List.find?_some hfind
  have hmem := List.mem_of_find?_eq_some hfind
  refine ⟨?_, ?_, ?_, ?_, ?_⟩
  · apply hlinks.updateRows <;> exact fun _ => rfl
  · exact mem_updateAll.mpr (.inl ⟨submission, hmem, by simpa using hid, rfl⟩)
  · rw [lastGrade_append, if_pos ⟨rfl, rfl⟩]
  · intro issue hissue hother
    rw [lastGrade_append, if_neg fun hsame => hother ⟨hsame.1.symm, hsame.2.symm⟩]
    exact hsettled issue hissue
  · intro issue hissue hconcerns
    exact horderly submission hmem hid issue (mem_issuesFor_row.mpr ⟨hissue, hconcerns⟩)

theorem step_keeps (hlinks : s.Links) (hsettled : s.Settled) {e : IssueEvent}
    (hsucceeds : s.Succeeds e) (horderly : s.Orderly e) :
    (s.step e).Links ∧ (s.step e).Settled := by
  cases e with
  | submit userId contentBlockId url now => exact ⟨hlinks.submit horderly, hsettled⟩
  | update id url => exact ⟨hlinks.update horderly, hsettled⟩
  | grade id grade feedback setting createdUrl =>
    cases hfind : s.submissions.find? (·.id == id) with
    | none =>
      have hsame : s.step (.grade id grade feedback setting createdUrl) = s := by
        simp only [step, hfind]
      rw [hsame]
      exact ⟨hlinks, hsettled⟩
    | some submission =>
      simp only [step, hfind]
      exact (graded_of_grade hlinks hsettled horderly hfind).handleGrade hsucceeds.1 hsucceeds.2

theorem Links.length_issuesFor_le (h : s.Links) (userId contentBlockId : ℕ) :
    (s.issuesFor userId contentBlockId).length ≤ 1 := by
  have hapart := h.apart.filter fun issue =>
    issue.userId == userId && issue.contentBlockId == contentBlockId
  change (s.issuesFor userId contentBlockId).Pairwise _ at hapart
  match hissues : s.issuesFor userId contentBlockId with
  | [] | [_] => simp
  | first :: second :: rest =>
    have hfirst := mem_issuesFor.mp (hissues ▸ List.mem_cons_self : first ∈ s.issuesFor _ _)
    have hsecond := mem_issuesFor.mp
      (hissues ▸ List.mem_cons_of_mem _ List.mem_cons_self : second ∈ s.issuesFor _ _)
    rw [hissues] at hapart
    have hne := (List.pairwise_cons.mp hapart).1 second (by simp)
    exact absurd ⟨hfirst.2.1.trans hsecond.2.1.symm, hfirst.2.2.trans hsecond.2.2.symm⟩ hne.2

theorem links_empty : ({} : IssueStore).Links where
  ids := .empty _ _
  present := by simp
  apart := .nil
  known := by simp
  linked := by simp

/-! ## Runs -/

/-- At most one issue for a student and a block, open exactly after a redo. -/
theorem issue_follows_last_grade {events : List IssueEvent}
    (h : Run (Meeting (fun s e => Succeeds s e ∧ Orderly s e) (Performs step)) {} events s)
    (userId contentBlockId : ℕ) :
    (s.issuesFor userId contentBlockId).length ≤ 1 ∧
      ∀ issue ∈ s.issuesFor userId contentBlockId,
        issue.isOpen = true ↔ s.lastGrade userId contentBlockId = some (some .R) := by
  obtain ⟨hlinks, hsettled⟩ : s.Links ∧ s.Settled := by
    refine h.invariant (fun s => s.Links ∧ s.Settled) ?_ ⟨links_empty, by simp [Settled]⟩
    rintro s e _ ⟨hlinks, hsettled⟩ ⟨⟨hsucceeds, horderly⟩, rfl⟩
    exact step_keeps hlinks hsettled hsucceeds horderly
  refine ⟨hlinks.length_issuesFor_le userId contentBlockId, ?_⟩
  intro issue hissue
  obtain ⟨hmem, rfl, rfl⟩ := mem_issuesFor.mp hissue
  exact hsettled issue hmem

def exampleSetting : IssueSetting where
  token := some "token"
  githubUsername := some "student"
  repo := some "prework-exercises"

/-- A redo with feedback, and a pass of the work that is submitted next. -/
def redoThenPass : List IssueEvent :=
  [.submit 1 7 none 10,
    .grade 1 (some .R) (some "Use a loop") exampleSetting
      "https://github.com/student/prework-exercises/issues/1",
    .submit 1 7 none 20,
    .grade 2 (some .A) none exampleSetting
      "https://github.com/student/prework-exercises/issues/2"]

theorem redo_then_pass_closes_issue :
    ((redoThenPass.foldl step {}).issuesFor 1 7).length = 1 ∧
      ((redoThenPass.foldl step {}).issuesFor 1 7).length ≤ 1 ∧
      ∀ issue ∈ (redoThenPass.foldl step {}).issuesFor 1 7,
        issue.isOpen = true ↔ (redoThenPass.foldl step {}).lastGrade 1 7 = some (some .R) :=
  ⟨by decide +kernel, issue_follows_last_grade (run_meeting_foldl (by decide +kernel)) 1 7⟩

/-- A redo after a pass is a comment on the closed issue. -/
theorem redo_after_pass_leaves_issue_closed :
    ¬ ∀ (events : List IssueEvent) (s : IssueStore),
      Run (Meeting Succeeds (Performs step)) {} events s →
        ∀ userId contentBlockId, (s.issuesFor userId contentBlockId).length ≤ 1 ∧
          ∀ issue ∈ s.issuesFor userId contentBlockId,
            issue.isOpen = true ↔ s.lastGrade userId contentBlockId = some (some .R) := by
  intro h
  have hrun := h (redoThenPass ++ [.grade 2 (some .R) (some "Name the variables") exampleSetting
    "https://github.com/student/prework-exercises/issues/3"]) _
    (run_meeting_foldl (by decide +kernel)) 1 7
  exact absurd hrun.2 (by decide +kernel)

end IssueStore

end LearningPlatform
