import LearningPlatform.Model.Restart
import LearningPlatform.Shared.Newest

/-! # GitHub issues of graded submissions

`GithubIssueService` as `SubmissionsController#grade` calls it, with the issues that GitHub holds.
Every call to GitHub succeeds. -/

namespace LearningPlatform

open Shared

/-! ## Issues and events -/

structure GithubIssue where
  url : String
  owner : String
  repo : String
  title : String
  body : String
  comments : List String := []
  isOpen : Bool := true
  /-- The student and the block for which the service created the issue. -/
  userId : ℕ
  contentBlockId : ℕ
  deriving DecidableEq, Repr

/-- What `handle_grade` reads beside the submission. -/
structure IssueSetting where
  token : Option String
  githubUsername : Option String
  /-- `resolve_repo` for the first active cohort of the student, if there is one. -/
  repo : Option String
  blockTitle : Option String := none
  lessonTitle : String := "Lesson"
  deriving DecidableEq, Repr

inductive IssueEvent where
  /-- `SubmissionsController#create`. -/
  | submit (userId contentBlockId : ℕ) (githubIssueUrl : Option String) (now : Time)
  /-- `SubmissionsController#update` with the key `github_issue_url`. -/
  | update (id : ℕ) (githubIssueUrl : Option String)
  /-- `SubmissionsController#grade`; `createdUrl` is the `html_url` that GitHub gives to an issue
  which the service creates. -/
  | grade (id : ℕ) (grade : Option Grade) (feedback : Option String) (setting : IssueSetting)
      (createdUrl : String)
  deriving DecidableEq, Repr

structure IssueStore where
  submissions : List Submission := []
  nextId : ℕ := 1
  issues : List GithubIssue := []
  /-- The student, the block and the grade of each grading so far. -/
  gradings : List (ℕ × ℕ × Option Grade) := []
  deriving DecidableEq

namespace IssueStore

/-! ## Calls to GitHub -/

variable (s : IssueStore)

def createIssue (issue : GithubIssue) : IssueStore :=
  { s with issues := s.issues ++ [issue] }

def addComment (issueUrl body : String) : IssueStore :=
  { s with
    issues := updateAll (·.url == issueUrl)
      (fun issue => { issue with comments := issue.comments ++ [body] }) s.issues }

/-- `close_issue` with a comment. -/
def closeIssue (issueUrl comment : String) : IssueStore :=
  { s with
    issues := updateAll (·.url == issueUrl)
      (fun issue => { issue with comments := issue.comments ++ [comment], isOpen := false })
      s.issues }

/-! ## The service -/

def findPriorIssueUrl (submission : Submission) : Option String :=
  (latest? (·.createdAt) (s.submissions.filter fun row =>
    row.userId == submission.userId && row.contentBlockId == submission.contentBlockId &&
      row.content.githubIssueUrl != none && row.content.githubIssueUrl != some "")).bind
        (·.content.githubIssueUrl)

/-- The issue that the service takes for that of the submission. -/
def issueUrl (submission : Submission) : Option String :=
  (presence submission.content.githubIssueUrl).or (presence (s.findPriorIssueUrl submission))

def issueBody (setting : IssueSetting) (feedback : String) : String :=
  "\n".intercalate
    ((match presence setting.blockTitle with
      | some title => ["**Exercise:** " ++ title]
      | none => []) ++
      ["**Lesson:** " ++ setting.lessonTitle, "", "### Feedback", feedback])

/-- `update_column(:github_issue_url, )`. -/
def linkIssue (id : ℕ) (url : Option String) : IssueStore :=
  { s with
    submissions := updateAll (·.id == id)
      (fun row => { row with content.githubIssueUrl := url }) s.submissions }

def handleRedoGrade (submission : Submission) (owner repo : String) (feedback : Option String)
    (setting : IssueSetting) (createdUrl : String) : IssueStore :=
  match s.issueUrl submission with
  | some url =>
    s.addComment url (match presence feedback with
      | some feedback => "**Redo requested again**\n\n" ++ feedback
      | none => "**Redo requested again** — please review and resubmit.")
  | none =>
    match presence feedback with
    | none => s
    | some feedback =>
      (s.createIssue
        { url := createdUrl
          owner
          repo
          title := "Redo: " ++ setting.blockTitle.getD setting.lessonTitle
          body := issueBody setting feedback
          userId := submission.userId
          contentBlockId := submission.contentBlockId }).linkIssue submission.id
        (some createdUrl)

def handleGrade (submission : Submission) (grade : Option Grade) (feedback : Option String)
    (setting : IssueSetting) (createdUrl : String) : IssueStore :=
  match presence setting.token, presence setting.githubUsername, setting.repo with
  | some _, some owner, some repo =>
    if grade = some .R then
      s.handleRedoGrade submission owner repo feedback setting createdUrl
    else
      match s.issueUrl submission with
      | none => s
      | some url =>
        s.closeIssue url ("Graded **" ++ (grade.map Grade.label).getD "" ++ "** - " ++
          (presence feedback).getD "Passing!")
  | _, _, _ => s

/-! ## Events -/

def step : IssueEvent → IssueStore
  | .submit userId contentBlockId githubIssueUrl now =>
    { s with
      submissions := s.submissions ++
        [{ id := s.nextId, userId, contentBlockId, content.githubIssueUrl := githubIssueUrl
           createdAt := now, updatedAt := now }]
      nextId := s.nextId + 1 }
  | .update id githubIssueUrl => s.linkIssue id githubIssueUrl
  | .grade id grade feedback setting createdUrl =>
    match s.submissions.find? (·.id == id) with
    | none => s
    | some submission =>
      let graded : IssueStore :=
        { s with
          submissions := updateAll (·.id == id) (fun row => { row with grade, feedback })
            s.submissions
          gradings := s.gradings ++
            [(submission.userId, submission.contentBlockId, grade)] }
      graded.handleGrade { submission with grade, feedback } grade feedback setting createdUrl

/-- The issues that the service created for a student and a block. -/
def issuesFor (userId contentBlockId : ℕ) : List GithubIssue :=
  s.issues.filter fun issue => issue.userId == userId && issue.contentBlockId == contentBlockId

def lastGrade (userId contentBlockId : ℕ) : Option (Option Grade) :=
  ((s.gradings.filter fun grading =>
    grading.1 == userId && grading.2.1 == contentBlockId).getLast?).map
    (·.2.2)

end IssueStore

end LearningPlatform
