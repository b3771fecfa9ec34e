import Quadpod.Credentials
import Quadpod.IpAddress

namespace Quadpod

/-!
# Guarded outbound fetches

`auth/safe_fetch.rs`: which destinations a fetch on a caller's behalf may reach.
Two layers decide.  Before a request is sent, its host is looked up once and
judged for the host and the port of the URL; the client that sends it looks the
host up again, through a resolver that is given no port.  The parser of URLs and
the HTTP client are outside this repository; `UrlLibrary` and `HttpClient` stand
for them.
-/

open AuthError

/-! ## What the libraries give -/

/-- `url::Url`, as far as it is read here. -/
structure ParsedUrl where
  scheme : Text
  hostStr : Option Text
  portOrKnownDefault : Option UInt16
  path : Text
  username : Text
  password : Option Text
  query : Option Text
  fragment : Option Text

/-- `reqwest::Url::parse`, with the message of its error. -/
class UrlLibrary where
  parse : Text → Except Text ParsedUrl

/-- What one DNS lookup of each name answers, or why it fails. -/
abbrev Lookup := Text → Except Text (List IpAddr)

/-- `tokio::net::lookup_host` -/
def lookupHost (lookup : Lookup) (host : Text) (port : UInt16) :
    Except Text (List SocketAddr) :=
  (lookup host).map fun found => found.map fun ip => ⟨ip, port⟩

/-- Why a resolver of the client failed. -/
inductive ResolveError where
  | lookup (message : Text)
  | screened (error : AuthError)

/-- `reqwest::dns::Resolve` -/
abbrev Resolver := Text → Except ResolveError (List SocketAddr)

/-- `reqwest::Response`; a body arrives in chunks, and may break off. -/
structure HttpResponse where
  status : Nat
  contentType : Option Text
  contentLength : Option Nat
  chunks : List (Except Text Bytes)

/-- The connections a request opened, and how it was answered. -/
structure Sent where
  connections : List SocketAddr
  response : Except Text HttpResponse

/-- A `reqwest::Client` with a resolver of its own, sending one `GET`. -/
class HttpClient where
  send : Resolver → ParsedUrl → (accept : Text) → Sent

/-! ## The policy -/

/-- `FetchPolicy` -/
structure FetchPolicy where
  allowHttp : Bool
  allowPrivateIps : Bool
  insecureHosts : List (Text × Option UInt16)

/-- `u16::from_str` -/
def parseU16 (text : Text) : Option UInt16 :=
  let digits := (Text.stripPrefix ['+'] text).getD text
  if !digits.isEmpty && digits.all (fun c => (IpText.toDigit 10 c).isSome) &&
      IpText.valueOf 10 digits < 65536 then
    some (.ofNat (IpText.valueOf 10 digits))
  else
    none

/-- `str::rfind` for a colon: what is before the last one and after it. -/
def splitLastColon (text : Text) : Option (Text × Text) :=
  (Text.splitOnce ':' text.reverse).map fun (after, before) =>
    (before.reverse, after.reverse)

/-- The ambiguity check on an entry: an address and a pair at once. -/
def isAmbiguousEntry (entry : Text) : Bool :=
  (Ipv6Addr.parse entry).isSome &&
    (splitLastColon entry).any fun (host, port) =>
      (Ipv6Addr.parse host).isSome && (parseU16 port).isSome

/-- The authority an entry is, and the port it names. -/
def entryAuthority (entry : Text) : Option (Text × Option UInt16) :=
  match Text.stripPrefix ['['] entry with
  | some rest => do
      let (_, tail) ← Text.splitOnce ']' rest
      if tail.isEmpty then
        some (entry, none)
      else do
        let port ← parseU16 (← Text.stripPrefix [':'] tail)
        some (entry, some port)
  | none =>
      if (Ipv6Addr.parse entry).isSome then
        some ('[' :: entry ++ [']'], none)
      else
        match splitLastColon entry with
        | some (_, tail) => (parseU16 tail).map fun port => (entry, some port)
        | none => some (entry, none)

/-- `parse_insecure_host_entry` -/
def parseInsecureHostEntry [UrlLibrary] (entry : Text) :
    Option (Text × Option UInt16) :=
  let entry := Text.trim entry
  if entry.isEmpty || isAmbiguousEntry entry then
    none
  else do
    let (authority, port) ← entryAuthority entry
    let url ←
      (UrlLibrary.parse ("http://".toList ++ authority ++ ['/'])).toOption
    if url.path ≠ ['/'] ∨ url.username ≠ [] ∨ url.password.isSome ∨
        url.query.isSome ∨ url.fragment.isSome then
      none
    else do
      let host ← url.hostStr
      some (host, port)

/-- `display_insecure_host_entry` -/
def displayInsecureHostEntry (host : Text) : Option UInt16 → Text
  | some port => host ++ ':' :: (Nat.repr port.toNat).toList
  | none => host

namespace FetchPolicy

/-- `FetchPolicy::default` -/
def default : FetchPolicy where
  allowHttp := false
  allowPrivateIps := false
  insecureHosts := []

/-- `FetchPolicy::permissive` -/
def permissive : FetchPolicy where
  allowHttp := true
  allowPrivateIps := true
  insecureHosts := []

/-- `FetchPolicy::try_with_insecure_hosts` -/
def tryWithInsecureHosts [UrlLibrary] (hosts : List Text) :
    FetchPolicy × List Text :=
  ({ allowHttp := false
     allowPrivateIps := false
     insecureHosts := hosts.filterMap parseInsecureHostEntry },
    hosts.filter fun entry => (parseInsecureHostEntry entry).isNone)

/-- `FetchPolicy::insecure_host_entries`; a set has each of its pairs once. -/
def insecureHostEntries (policy : FetchPolicy) : List Text :=
  (policy.insecureHosts.dedup.map fun (host, port) =>
    displayInsecureHostEntry host port).mergeSort textLe

/-- `FetchPolicy::permits_insecure` -/
def permitsInsecure (policy : FetchPolicy) (host : Text) (port : UInt16) :
    Bool :=
  policy.insecureHosts.contains (host, none) ||
    policy.insecureHosts.contains (host, some port)

/-- `FetchPolicy::permits_insecure_host` -/
def permitsInsecureHost (policy : FetchPolicy) (host : Text) : Bool :=
  policy.insecureHosts.any fun entry => entry.1 = host

end FetchPolicy

/-! ## Forbidden addresses -/

/-- `Ipv4Addr::is_private` -/
def isPrivate (ip : Ipv4Addr) : Bool :=
  ip.a == 10 || (ip.a == 172 && 16 ≤ ip.b && ip.b ≤ 31) ||
    (ip.a == 192 && ip.b == 168)

/-- `Ipv4Addr::is_link_local` -/
def isLinkLocal (ip : Ipv4Addr) : Bool :=
  ip.a == 169 && ip.b == 254

/-- `is_cgnat` -/
def isCgnat (ip : Ipv4Addr) : Bool :=
  ip.a == 100 && (ip.b &&& 0b11000000) == 0b01000000

/-- `is_forbidden_ip` for an IPv4 address. -/
def isForbiddenIpv4 (ip : Ipv4Addr) : Bool :=
  ip.a == 127 || ip == ⟨0, 0, 0, 0⟩ || isPrivate ip || isLinkLocal ip ||
    isCgnat ip

/-- The IPv4 address in the last two groups of an IPv6 one. -/
def embeddedIpv4 (high low : UInt16) : Ipv4Addr :=
  ⟨(high >>> 8).toUInt8, high.toUInt8, (low >>> 8).toUInt8, low.toUInt8⟩

/-- `is_unique_local`, on the first group. -/
def isUniqueLocal (first : UInt16) : Bool :=
  (first &&& 0xfe00) == 0xfc00

/-- `is_link_local_v6`, on the first group. -/
def isLinkLocalV6 (first : UInt16) : Bool :=
  (first &&& 0xffc0) == 0xfe80

/-- `is_forbidden_ip` for an IPv6 address. -/
def isForbiddenIpv6 (ip : Ipv6Addr) : Bool :=
  match ip.segments with
  | [0, 0, 0, 0, 0, 0xffff, high, low] =>
      isForbiddenIpv4 (embeddedIpv4 high low)
  | [0, 0, 0, 0, 0, 0, high, low] =>
      if high = 0 ∧ (low = 0 ∨ low = 1) then
        true
      else
        isForbiddenIpv4 (embeddedIpv4 high low)
  | first :: _ => isUniqueLocal first || isLinkLocalV6 first
  | [] => false

/-- `is_forbidden_ip` -/
def isForbiddenIp : IpAddr → Bool
  | .v4 ip => isForbiddenIpv4 ip
  | .v6 ip => isForbiddenIpv6 ip

/-! ## Resolving -/

/-- `screen_addresses` -/
def screenAddresses (resolved : List SocketAddr) (allowPrivate : Bool) :
    Except AuthError (List SocketAddr) := do
  refuseIf (resolved.isEmpty)
    (.fetchBlocked "host resolved to no addresses".toList)
  refuseIf (!allowPrivate && resolved.any fun address =>
      isForbiddenIp address.ip)
    (.fetchBlocked ("target resolves to a forbidden " ++
      "(private/loopback/link-local) IP").toList)
  pure resolved

/-- The address a host is, when it is one and not a name. -/
def ipLiteral (host : Text) : Option IpAddr :=
  IpAddr.parse ((host.dropWhile (· = '[')).rdropWhile (· = ']'))

/-- The candidates of `resolve_allowed`: the address itself, or a lookup's. -/
def candidateAddresses (lookup : Lookup) (host : Text) (port : UInt16) :
    Except AuthError (List SocketAddr) :=
  match ipLiteral host with
  | some ip => .ok [⟨ip, port⟩]
  | none =>
      (lookupHost lookup host port).mapError fun message =>
        .fetchBlocked ("DNS resolution failed: ".toList ++ message)

/-- `resolve_allowed` -/
def resolveAllowed
    (lookup : Lookup) (host : Text) (port : UInt16) (policy : FetchPolicy) :
    Except AuthError (List SocketAddr) := do
  let resolved ← candidateAddresses lookup host port
  screenAddresses resolved
    (policy.allowPrivateIps || policy.permitsInsecure host port)

/-- `PolicyResolver::resolve` -/
def policyResolver (policy : FetchPolicy) (lookup : Lookup) : Resolver :=
  fun host => do
    let resolved ← (lookupHost lookup host 0).mapError .lookup
    (screenAddresses resolved
      (policy.allowPrivateIps ||
        policy.permitsInsecureHost host)).mapError .screened

/-! ## Fetching -/

/-- `GuardedClient`: the client whose resolver screens for a policy. -/
structure GuardedClient where
  policy : FetchPolicy

/-- `MAX_BODY_BYTES` -/
def maxBodyBytes : Nat := 1024 * 1024

/-- The loop of `guarded_get` over the chunks of a body. -/
def readChunks : Bytes → List (Except Text Bytes) → Except AuthError Bytes
  | buffer, [] => .ok buffer
  | _, .error message :: _ =>
      .error (.fetchBlocked ("failed to read body: ".toList ++ message))
  | buffer, .ok chunk :: rest =>
      if maxBodyBytes < buffer.length + chunk.length then
        .error (.fetchBlocked "response exceeds size cap".toList)
      else
        readChunks (buffer ++ chunk) rest

/-- What `guarded_get` makes of the response. -/
def readResponse (response : Except Text HttpResponse) :
    Except AuthError (Text × Option Text) := do
  let response ← response.mapError fun message =>
    .fetchBlocked ("request failed: ".toList ++ message)
  refuseIf (¬ (200 ≤ response.status ∧ response.status < 300))
    (.fetchBlocked ("non-success status: ".toList ++
      (Nat.repr response.status).toList))
  refuseIf (response.contentLength.any fun length => maxBodyBytes < length)
    (.fetchBlocked "response exceeds size cap".toList)
  let buffer ← readChunks [] response.chunks
  let body ← okOr (String.fromUTF8? ⟨buffer.toArray⟩)
    (.fetchBlocked "response was not valid UTF-8".toList)
  pure (body.toList, response.contentType)

/-- The part of `guarded_get` before the request is sent. -/
def preflight [UrlLibrary]
    (lookup : Lookup) (url : Text) (policy : FetchPolicy) :
    Except AuthError ParsedUrl := do
  let parsed ← (UrlLibrary.parse url).mapError fun message =>
    .fetchBlocked ("invalid URL: ".toList ++ message)
  let host ← okOr parsed.hostStr (.fetchBlocked "URL has no host".toList)
  let port ← okOr parsed.portOrKnownDefault
    (.fetchBlocked "URL has no port".toList)
  let insecureOk := policy.permitsInsecure host port
  refuseIf
    (¬ (parsed.scheme = "https".toList ∨
      parsed.scheme = "http".toList ∧
        (policy.allowHttp = true ∨ insecureOk = true)))
    (.fetchBlocked ("refusing non-https scheme: ".toList ++ parsed.scheme))
  let _ ← resolveAllowed lookup host port policy
  pure parsed

/-- The connections a fetch opened, and what it returned. -/
structure Fetched where
  connections : List SocketAddr
  result : Except AuthError (Text × Option Text)

/-- `guarded_get`; the lookups it causes are answered one after the other. -/
def guardedGet [UrlLibrary] [HttpClient]
    (lookups : Nat → Lookup) (client : GuardedClient) (url accept : Text)
    (policy : FetchPolicy) : Fetched :=
  match preflight (lookups 0) url policy with
  | .error error => ⟨[], .error error⟩
  | .ok parsed =>
      let sent :=
        HttpClient.send (policyResolver client.policy (lookups 1)) parsed accept
      ⟨sent.connections, readResponse sent.response⟩

end Quadpod
