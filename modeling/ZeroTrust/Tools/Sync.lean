import ZeroTrust.Lib.Effect
import ZeroTrust.Lib.Runs
import ZeroTrust.Lib.TracedCache
import ZeroTrust.Tools.CveSync

/-!
# A run of the sync

`tools/cve_sync.py` around its parsers: the fetcher with its disk cache, and the loop over the CVEs. The network
and `json.loads` are parameters. What the trackers have sent is kept next to the cache; whatever runs came before,
a document that the fetcher gives to a parser was sent by a tracker for that CVE and is no older than the TTL.
-/

namespace ZeroTrust

open Function (update)

/-- What becomes of a request: a document, a 404, a failure that is printed, or an exception that `get` does not
catch. -/
inductive TrackerAnswer
  | document (data : Text)
  | notFound
  | failed
  | raised

/-- The answers to the requests, by their number and address, and how long they take, in nanoseconds; how long a
run pauses in front of the next CVE. -/
structure Trackers where
  answer : ℕ → Text → TrackerAnswer
  delay : ℕ → ℕ
  pause : ℕ → ℕ

/-- A reply that was written to the cache: a document, or the empty text for a 404. -/
structure Reply where
  url : Text
  data : Text
  time : ℕ

/-- The files of the cache with their modification times, the clock, and the replies so far. -/
structure SyncState where
  clock : ℕ := 0
  requests : ℕ := 0
  cache : Text → Option (Stamped Text) := fun _ => none
  replies : List Reply := []

/-- Failures that end a run: an exception of a request, a document of an unexpected shape, a text that cannot be
encoded. -/
inductive SyncError
  | request
  | malformed
  | encoding

/-- A part of a run. -/
abbrev Sync := Effect SyncState SyncError Empty

/-- `url.replace("://", "_")`. -/
def replaceScheme : Text → Text
  | 58 :: 47 :: 47 :: rest => 95 :: replaceScheme rest
  | c :: rest => c :: replaceScheme rest
  | [] => []

/-- The name of a file in the cache, up to its extension. -/
def cacheKey (url : Text) : Text :=
  (replaceScheme url).map fun c => if c = 47 ∨ c = 58 ∨ c = 63 then 95 else c

/-- `read_text` gives every line end as a newline. -/
def universalNewlines : Text → Text
  | 13 :: 10 :: rest => 10 :: universalNewlines rest
  | c :: rest => (if c = 13 then 10 else c) :: universalNewlines rest
  | [] => []

/-- `Fetcher`, with its TTL in nanoseconds. -/
structure Fetcher where
  ttl : ℤ
  force : Bool

/-- A request and its answer. -/
def SyncState.request (st : SyncState) (trackers : Trackers) : SyncState :=
  { st with clock := st.clock + trackers.delay st.requests, requests := st.requests + 1 }

/-- `write_text`, of what was replied just now. -/
def SyncState.store (st : SyncState) (url data : Text) : SyncState :=
  { st with
    cache := update st.cache (cacheKey url) (some ⟨data, st.clock⟩)
    replies := st.replies ++ [⟨url, data, st.clock⟩] }

/-- A file of the cache that `get` does not fetch again. -/
def Fetcher.cached (f : Fetcher) (st : SyncState) (url : Text) : Option (Stamped Text) :=
  if f.force then none else (st.cache (cacheKey url)).filter fun file => file.Fresh st.clock f.ttl

/-- `Fetcher.get`. -/
def Fetcher.get (f : Fetcher) (trackers : Trackers) (url : Text) : Sync (Option Text) := fun st =>
  match f.cached st url with
  | some file => .ok (some (universalNewlines file.value)) st
  | none =>
    match trackers.answer st.requests url with
    | .document data => .ok (some data) ((st.request trackers).store url data)
    | .notFound => .ok none ((st.request trackers).store url [])
    | .failed => .ok none (st.request trackers)
    | .raised => .throw .request (st.request trackers)

/-- The address of the record of a CVE. -/
def ubuntuUrl (cve : Text) : Text := text "https://ubuntu.com/security/cves/" ++ cve ++ text ".json"

/-- The address of the dump. -/
def debianUrl : Text := text "https://security-tracker.debian.org/tracker/data/json"

/-- What `main` reads from the command line, and `json.loads`. -/
structure SyncOptions where
  fetcher : Fetcher
  ubuntu : Bool
  debian : Bool
  convert : CaseConversion
  parse : Text → Option TrackerValue

/-- An exception ends the run. -/
def orRaise {α : Type} (e : SyncError) : Option α → Sync α
  | some a => pure a
  | none => Effect.throw e

/-- A document that is not empty. -/
def SyncOptions.document (opts : SyncOptions) (trackers : Trackers) (url : Text) : Sync (Option Text) := do
  let blob ← opts.fetcher.get trackers url
  return blob.filter (· ≠ [])

/-- The rows of a CVE from Ubuntu. -/
def SyncOptions.ubuntuRows (opts : SyncOptions) (trackers : Trackers) (cve : Text) : Sync (List (Option FixRow)) :=
  if opts.ubuntu then do
    match ← opts.document trackers (ubuntuUrl cve) with
    | some blob => orRaise .malformed (parseUbuntu opts.convert cve (opts.parse blob))
    | none => return []
  else return []

/-- The rows of a CVE from Debian. -/
def SyncOptions.debianRows (opts : SyncOptions) (index : List (Text × Text × TrackerValue)) (cve : Text) :
    Sync (List (Option FixRow)) :=
  if opts.debian ∧ index ≠ [] then orRaise .malformed (rowsFromDebianIndex opts.convert cve index) else return []

/-- `debian_index`, from the dump if it could be fetched. -/
def SyncOptions.debianIndex (opts : SyncOptions) (trackers : Trackers) : Sync (List (Text × Text × TrackerValue)) :=
  if opts.debian then do
    match ← opts.document trackers debianUrl with
    | some blob => return buildDebianIndex opts.convert (opts.parse blob)
    | none => return []
  else return []

/-- The pause behind a CVE. -/
def pauseSync (trackers : Trackers) : Sync Unit :=
  Effect.modify fun st => { st with clock := st.clock + trackers.pause st.requests }

/-- The loop over the CVEs. -/
def SyncOptions.syncCves (opts : SyncOptions) (trackers : Trackers) (index : List (Text × Text × TrackerValue)) :
    List Text → Sync (List (Option FixRow))
  | [] => return []
  | cve :: cves => do
    let ubuntu ← opts.ubuntuRows trackers cve
    let debian ← opts.debianRows index cve
    pauseSync trackers
    let rows ← opts.syncCves trackers index cves
    return ubuntu ++ debian ++ rows

/-- `all_rows` of `main`, once the ids are known. -/
def SyncOptions.allRows (opts : SyncOptions) (trackers : Trackers) (cves : List Text) :
    Sync (List (Option FixRow)) := do
  let index ← opts.debianIndex trackers
  opts.syncCves trackers index cves

/-- `main`, once the ids are known: the content of the table, if `format_row` and the encoding do not fail. -/
def SyncOptions.main (opts : SyncOptions) (trackers : Trackers) (gmtime : ℕ → GmTime) (cves : List Text) :
    Sync Bytes := do
  let rows ← opts.allRows trackers cves
  let now ← Effect.gets SyncState.clock
  let rows ← orRaise .malformed (rows.mapM id)
  orRaise .encoding (writeOutput (gmtime now) rows)

end ZeroTrust
