import Reva.Sql
import Reva.Link
import Reva.Manager
import Reva.Statements
import Reva.Reads
import Reva.Listing
import Reva.Visibility
import Reva.Writes
import Reva.Frames
import Reva.Run
import Reva.Janitor
import Reva.Existence
import Reva.RoundTrip
import Reva.History
import Reva.GoMap
import Reva.AuthRegistry
import Reva.Url
import Reva.Middleware
import Reva.Tracing.Provider
import Reva.Tracing.Goroutines
import Reva.Tracing.Handlers
import Reva.Oidc.Model
import Reva.Oidc.Mapping
import Reva.Oidc.Authenticate
