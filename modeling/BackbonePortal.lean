import BackbonePortal.Prog
import BackbonePortal.Pool
import BackbonePortal.Table
import BackbonePortal.Values
import BackbonePortal.Store
import BackbonePortal.Statements
import BackbonePortal.Throttle
import BackbonePortal.Actions
import BackbonePortal.Credentials
import BackbonePortal.Invites
import BackbonePortal.Access
import BackbonePortal.Lifecycle
import BackbonePortal.Surface
import BackbonePortal.Routes
import BackbonePortal.Requests
import BackbonePortal.Effects
import BackbonePortal.Origins
import BackbonePortal.Ensures
import BackbonePortal.Verification
import BackbonePortal.Revocation
import BackbonePortal.Footprint
import BackbonePortal.Chains
import BackbonePortal.RotationChain
import BackbonePortal.InviteOneShot
import BackbonePortal.Alone
import BackbonePortal.Reaccess
import BackbonePortal.Trail
import BackbonePortal.Atomicity
import BackbonePortal.LinkOrder
import BackbonePortal.Delivery
import BackbonePortal.Redelivery
import BackbonePortal.LinkReach
import BackbonePortal.ThrottleGate
import BackbonePortal.Attempts
import BackbonePortal.Oracles
import BackbonePortal.Rendering
import BackbonePortal.Lifetime
import BackbonePortal.Gates
import BackbonePortal.KillSwitch
import BackbonePortal.Duties
import BackbonePortal.Sweeps
import BackbonePortal.Auditing
import BackbonePortal.Latest
import BackbonePortal.History
import BackbonePortal.Sections
import BackbonePortal.Spacing
import BackbonePortal.Standing
import BackbonePortal.Unset
import BackbonePortal.Tallies
import BackbonePortal.Creations
import BackbonePortal.Edges
import BackbonePortal.Addresses
import BackbonePortal.Uniformity
import BackbonePortal.Fields
import BackbonePortal.Recipients
import BackbonePortal.Families
import BackbonePortal.Book
import BackbonePortal.Patch
import BackbonePortal.SurfaceGate
import BackbonePortal.RoundTrips
import BackbonePortal.Spellings
import BackbonePortal.Canonical
import BackbonePortal.Folding
import BackbonePortal.Isolation
import BackbonePortal.SweptRuns
import BackbonePortal.Expiries
import BackbonePortal.Moments
import BackbonePortal.Calls
import BackbonePortal.Grants
import BackbonePortal.Histories
import BackbonePortal.Registry
import BackbonePortal.Refinement
import BackbonePortal.Precedence
import BackbonePortal.Mediation
import BackbonePortal.Provenance
import BackbonePortal.Testimony
import BackbonePortal.Allowance
import BackbonePortal.Recording
import BackbonePortal.Lockouts
import BackbonePortal.Lockstep
import BackbonePortal.Passwords
import BackbonePortal.Issues
import BackbonePortal.Authorship
import BackbonePortal.Coherence
