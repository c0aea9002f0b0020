import LmsBackend.Authority.AdminSurface
import LmsBackend.Authority.Attribution
import LmsBackend.Authority.Provenance
import LmsBackend.Authority.RoleCodes
import LmsBackend.Authority.Students
import LmsBackend.Authority.UserAgents
import LmsBackend.Concurrency.Conflicts
import LmsBackend.Concurrency.ResetTokens
import LmsBackend.Concurrency.SpentTokens
import LmsBackend.Content.Bounds
import LmsBackend.Content.CourseAssignments
import LmsBackend.Content.Dashboard
import LmsBackend.Content.DueDates
import LmsBackend.Content.Enrolment
import LmsBackend.Content.Reports
import LmsBackend.Content.Search
import LmsBackend.Content.Sorting
import LmsBackend.Effects.EventBus
import LmsBackend.Grading.StoredPoints
import LmsBackend.History.AccessTokens
import LmsBackend.History.Creations
import LmsBackend.Isolation.Connections
import LmsBackend.Isolation.Neighbours
import LmsBackend.Isolation.Repositories
import LmsBackend.Licensing.Coherence
import LmsBackend.Licensing.Overview
import LmsBackend.RateLimit.Expiry
import LmsBackend.RateLimit.Identity
import LmsBackend.Scripts.Idempotence
import LmsBackend.Tenancy.PreAuth
