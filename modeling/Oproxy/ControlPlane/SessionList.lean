import Mathlib.Data.Char
import Mathlib.Data.Int.Order.Basic
import Mathlib.Data.List.Lex
import Mathlib.Data.Nat.Basic
import Mathlib.Order.Lattice
import Oproxy.ControlPlane.Workspace
import Oproxy.Lib.Regex
import Oproxy.Session.Polling

/-!
# The list of sessions (`api/mod.rs`, `session/search.rs`, `control_plane/sessions.rs`)

The sessions which pass a filter are counted for the facets, sorted by one of ten keys, turned around for a descending
list, and cut into pages.  A key of a session without the datum is a default: for the protocol it is the empty text.
-/

namespace Oproxy

/-! ### Search terms -/

inductive SearchTerm where
  | tag (t : Str)
  | host (h : Str)
  | method (m : Str)
  | status (s : Nat)
  | text (t : Str)

def splitWhitespace (s : Str) : List Str := (s.splitOnP Str.isWhitespace).filter fun part => !part.isEmpty

section

-- `str::to_lowercase`, which lowers the letters of all alphabets
variable (toLowercase : Str → Str)

def SearchTerm.matches (ex : Exchange) : SearchTerm → Bool
  | tag t => ex.tags.any fun tag => Str.contains t (toLowercase tag)
  | host h => Str.contains h (toLowercase ex.request.host)
  | method m => toLowercase ex.request.method == m
  | status s => (ex.response.map fun r => r.status == s).getD false
  | text t =>
    Str.contains t (toLowercase ex.request.uri) || Str.contains t (toLowercase ex.request.bodyText) ||
      ex.request.headers.entries.any (fun e => Str.contains t (toLowercase e.1) || Str.contains t (toLowercase e.2)) ||
      (ex.response.map fun r => Str.contains t (toLowercase r.bodyText) ||
        r.headers.entries.any fun e => Str.contains t (toLowercase e.1) ||
          Str.contains t (toLowercase e.2)).getD false ||
      (ex.note.map fun n => Str.contains t (toLowercase n)).getD false

def parseSearchTerm (token : Str) : SearchTerm :=
  match Str.stripPrefix "tag:" token with
  | some t => .tag (toLowercase t)
  | none =>
    match Str.stripPrefix "host:" token with
    | some h => .host (toLowercase h)
    | none =>
      match Str.stripPrefix "method:" token with
      | some m => .method (toLowercase m)
      | none =>
        match Str.stripPrefix "status:" token with
        | some s => ((Str.parseUnsigned 65535 s).map SearchTerm.status).getD (.text (toLowercase s))
        | none => .text (toLowercase token)

def parseSearchQuery (query : Str) : List SearchTerm :=
  ((splitWhitespace query).filter fun s => !s.isEmpty).map (parseSearchTerm toLowercase)

end

/-! ### What is known of a session -/

def responseStatus (session : Exchange) : Nat := (session.response.map ResponseContext.status).getD 0

def statusBucket (session : Exchange) : Str :=
  let status := responseStatus session
  if 100 ≤ status ∧ status ≤ 199 then "1"
  else if 200 ≤ status ∧ status ≤ 299 then "2"
  else if 300 ≤ status ∧ status ≤ 399 then "3"
  else if 400 ≤ status ∧ status ≤ 499 then "4"
  else if 500 ≤ status ∧ status ≤ 599 then "5"
  else "-"

def sessionPath (session : Exchange) : Str :=
  let uri := session.request.uri
  let afterHost := (Str.splitOnceStr "://" uri).bind fun parts =>
    if '/' ∈ parts.2 then some (parts.2.dropWhile (· ≠ '/')) else none
  let path := afterHost.getD uri
  ((Str.splitOnce '?' path).map Prod.fst).getD path

def sessionKind (session : Exchange) : Str :=
  if (session.inspectorData.bind InspectorData.graphql).isSome then "graphql"
  else if (session.inspectorData.bind InspectorData.grpc).isSome then "grpc"
  else if session.response.isSome then "http"
  else "pending"

def requestSize (session : Exchange) : Nat :=
  (session.metrics.map InspectionMetrics.requestSizeBytes).getD session.request.body.length

def sessionLatency (session : Exchange) : Nat := (session.metrics.map InspectionMetrics.latencyMs).getD 0

def sessionProtocol (session : Exchange) : Str := (session.metrics.bind InspectionMetrics.protocol).getD []

def sessionFilterHaystack (session : Exchange) : Str :=
  session.request.uri ++ " ".toList ++ session.request.method ++ " ".toList ++ session.request.host ++ " ".toList ++
    sessionKind session ++ " ".toList ++ List.intercalate " ".toList session.tags

/-! ### The filter -/

inductive SessionSortDirection where
  | asc | desc
  deriving DecidableEq

structure SessionSort where
  key : Str
  dir : SessionSortDirection

structure SessionListFilter where
  query : Str
  regex : Bool
  methods : Option (List Str)
  statusBuckets : Option (List Str)
  hostFocus : List Str
  hostFilter : Option Str
  sort : SessionSort

structure SessionListOptions where
  since : Option Timestamp
  limit : Option Nat
  offset : Option Nat
  includeBodies : Bool
  filter : SessionListFilter

/-- One of the hosts is the host of the session or a domain above it. -/
def focused (session : Exchange) (hosts : List Str) : Bool :=
  hosts.any fun host =>
    let h := session.request.host.toAsciiLowercase
    decide (h = host) || decide (('.' :: host) <:+ h)

section

variable (toLowercase : Str → Str) (compile : RegexEngine)

def matchesSessionFilter (session : Exchange) (filter : SessionListFilter) : Bool :=
  if (filter.methods.any fun methods => !methods.any fun method => session.request.method.eqIgnoreAsciiCase method) then
    false
  else if (filter.statusBuckets.any fun buckets => !buckets.any fun bucket => statusBucket session == bucket) then false
  else if ((filter.hostFilter.filter fun host => !host.isEmpty).any fun host =>
      !session.request.host.eqIgnoreAsciiCase host) then
    false
  else if !filter.hostFocus.isEmpty && !focused session filter.hostFocus then false
  else
    let query := filter.query.trim
    if query.isEmpty then true
    else if filter.regex then
      match compile query with
      | none => false
      | some re => re.isMatch (sessionFilterHaystack session)
    else (parseSearchQuery toLowercase query).all fun term => term.matches toLowercase session

end

/-! ### Sorting, facets and pages -/

/-- `sort_by_key`, which is stable. -/
def sortByKey {κ : Type} [LinearOrder κ] (key : Exchange → κ) (sessions : List Exchange) : List Exchange :=
  sessions.mergeSort fun a b => decide (key a ≤ key b)

/-- The list in ascending order of a key. -/
def sortedByKey (sessions : List Exchange) (key : Str) : List Exchange :=
  if key = "idx" ∨ key = "ts" then sortByKey Exchange.timestamp sessions
  else if key = "method" then sortByKey (fun session => session.request.method.toAsciiUppercase) sessions
  else if key = "status" then sortByKey responseStatus sessions
  else if key = "host" then sortByKey (fun session => session.request.host.toAsciiLowercase) sessions
  else if key = "path" then sortByKey sessionPath sessions
  else if key = "type" then sortByKey sessionKind sessions
  else if key = "reqSize" then sortByKey requestSize sessions
  else if key = "total" then sortByKey sessionLatency sessions
  else if key = "protocol" then sortByKey sessionProtocol sessions
  else sortByKey Exchange.timestamp sessions

def sortSessions (sessions : List Exchange) (sort : SessionSort) : List Exchange :=
  match sort.dir with
  | .asc => sortedByKey sessions sort.key
  | .desc => (sortedByKey sessions sort.key).reverse

structure SessionListFacets where
  methods : IndexMap Str Nat
  statusBuckets : IndexMap Str Nat
  hosts : IndexMap Str Nat

/-- `*map.entry(key).or_default() += 1`. -/
def countOne (map : IndexMap Str Nat) (key : Str) : IndexMap Str Nat := map.insert key ((map.get? key).getD 0 + 1)

def buildFacets (sessions : List Exchange) : SessionListFacets :=
  sessions.foldl (fun facets session =>
    ⟨countOne facets.methods session.request.method.toAsciiUppercase,
      countOne facets.statusBuckets (statusBucket session), countOne facets.hosts session.request.host⟩)
    ⟨IndexMap.empty, IndexMap.empty, IndexMap.empty⟩

structure SessionListResponse where
  sessions : List Exchange
  total : Nat
  filteredTotal : Nat
  limit : Option Nat
  offset : Option Nat
  facets : SessionListFacets

/-- A session without the bodies and payloads. -/
def Exchange.bodyless (exchange : Exchange) : Exchange :=
  { exchange with
    request := { exchange.request with body := [] }
    response := exchange.response.map fun response => { response with body := [] }
    wsFrames := exchange.wsFrames.map WsFrame.clearPayload }

namespace SessionStore

variable (toLowercase : Str → Str) (compile : RegexEngine)

def getAllSessions (s : SessionStore) : List Exchange := s.exchanges.values

/-- The sessions which pass, in the order of the store. -/
def passing (s : SessionStore) (options : SessionListOptions) : List Exchange :=
  (s.getAllSessions.filter fun session => matchesSince session options.since).filter fun session =>
    matchesSessionFilter toLowercase compile session options.filter

def listSessions (s : SessionStore) (options : SessionListOptions) : SessionListResponse :=
  let sessions := s.passing toLowercase compile options
  let sorted := sortSessions sessions options.filter.sort
  let off := options.offset.getD 0
  let paged :=
    match options.limit with
    | some lim => (sorted.drop off).take lim
    | none => sorted.drop off
  { sessions := if options.includeBodies then paged else paged.map Exchange.bodyless
    total := s.getAllSessions.length
    filteredTotal := sessions.length
    limit := options.limit
    offset := options.offset
    facets := buildFacets sessions }

end SessionStore

/-! ### The query -/

structure SessionQuery where
  since : Option Str
  limit : Option Nat
  offset : Option Nat
  q : Option Str
  regex : Option Bool
  methods : Option Str
  statusBuckets : Option Str
  hostFocus : Option Str
  hostFilter : Option Str
  host : Option Str
  sortKey : Option Str
  sortDir : Option Str
  workspaceView : Option Str
  includeBodies : Option Bool

def splitCsv (value : Str) : List Str := ((Str.split ',' value).map Str.trim).filter fun value => !value.isEmpty

def parseSortDir (value : Option Str) : SessionSortDirection := if value = some ("asc" : Str) then .asc else .desc

def sessionFilterFromWorkspace (view : SessionsViewState) : SessionListFilter :=
  let methods :=
    if (view.methods.any fun m => m.eqIgnoreAsciiCase "GET") && !view.methods.any fun m => m.eqIgnoreAsciiCase "WS" then
      view.methods ++ ["WS".toList]
    else view.methods
  { query := view.query
    regex := view.regex
    methods := some methods
    statusBuckets := some view.statusBuckets
    hostFocus := view.hostFocus
    hostFilter := view.hostFilter
    sort := ⟨view.sort.key, match view.sort.dir with | .asc => .asc | .desc => .desc⟩ }

/-- The options of a query; the instant is read by a library. -/
def SessionQuery.options (q : SessionQuery) (parseTime : Str → Option Timestamp) (view : SessionsViewState) :
    SessionListOptions where
  since := q.since.bind parseTime
  limit := q.limit
  offset := q.offset
  includeBodies := q.includeBodies.getD false
  filter :=
    if q.workspaceView = some ("current" : Str) then sessionFilterFromWorkspace view
    else
      { query := q.q.getD []
        regex := q.regex.getD false
        methods := q.methods.map splitCsv
        statusBuckets := q.statusBuckets.map splitCsv
        hostFocus := (q.hostFocus.map splitCsv).getD []
        hostFilter := (q.hostFilter.or q.host).filter fun h => !h.trim.isEmpty
        sort := ⟨q.sortKey.getD "ts", parseSortDir q.sortDir⟩ }

end Oproxy
