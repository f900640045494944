import LearningPlatform.Verification.DirectConversation.Correctness
import LearningPlatform.Verification.Schedule.StartDates
import LearningPlatform.Verification.Access.Revocation
import LearningPlatform.Verification.Access.Disclosure
import LearningPlatform.Verification.Access.StudentView
import LearningPlatform.Verification.Restart.Correctness
import LearningPlatform.Verification.Video.Bounds
import LearningPlatform.Verification.Video.Playback
import LearningPlatform.Verification.HelpNotifications
import LearningPlatform.Verification.StudentWork.SubmissionCounts
import LearningPlatform.Verification.StudentWork.GradedContent
import LearningPlatform.Verification.Pings.Credit
import LearningPlatform.Verification.Pings.Replacement
import LearningPlatform.Verification.Messages.MobileList
import LearningPlatform.Verification.Messages.Deletions
import LearningPlatform.Verification.Messages.BlockedText
import LearningPlatform.Verification.Messages.ReadMarks
import LearningPlatform.Verification.Messaging.Visibility
import LearningPlatform.Verification.Announcements
import LearningPlatform.Verification.Interventions.TerminalStatus
import LearningPlatform.Verification.CohortSettings
import LearningPlatform.Verification.Messages.Content
import LearningPlatform.Verification.GithubIssues
import LearningPlatform.Verification.GithubCheckRuns
import LearningPlatform.Verification.AccountDeletion
import LearningPlatform.Verification.SubmissionWindows
import LearningPlatform.Verification.Schedule.DailyUnlocks
import LearningPlatform.Verification.OfficeHours.Serializer
import LearningPlatform.Verification.WeeklyPlan
import LearningPlatform.Verification.Curriculum.LessonLinks
import LearningPlatform.Verification.VoiceAudio.MovieDuration
import LearningPlatform.Verification.VoiceDraft
import LearningPlatform.Verification.MessageFormat.Normalization
import LearningPlatform.Verification.MessageFormat.Blocks
import LearningPlatform.Verification.SubmissionQueue
import LearningPlatform.Verification.Threads
import LearningPlatform.Verification.Video.Credit
import LearningPlatform.Verification.Video.SaveQueue
import LearningPlatform.Verification.Mentions.Notified
import LearningPlatform.Verification.Mentions.Inserted
import LearningPlatform.Verification.InlineFormat.Links
import LearningPlatform.Verification.InlineFormat.MarkdownLinks
