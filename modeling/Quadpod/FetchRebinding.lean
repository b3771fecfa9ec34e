import Quadpod.SafeFetch

namespace Quadpod

/-!
# Port-exact exemptions and rebinding

An operator exempts a host on one port, or on all of them.  The look before a
request is sent honours the port; the client's own lookup, which is the one that
is connected to, exempts the host on every port.  A name that answers publicly
to the first and privately to the second is therefore reached on a port the
operator did not name.  It is the only way past the policy: for every other URL
the exemptions are exact, whatever the lookups answer.
-/

open AuthError

variable [UrlLibrary] [HttpClient]

/-! ## What the client is relied on for -/

/-- A URL of the web: what the parser returns for a text with such a scheme. -/
def IsWebUrl (url : ParsedUrl) : Prop :=
  (∃ text, UrlLibrary.parse text = .ok url) ∧
    (url.scheme = "https".toList ∨ url.scheme = "http".toList)

/-- The addresses of a resolver that leaves the port to the client. -/
def LeavesPort (resolver : Resolver) : Prop :=
  ∀ host found,
    resolver host = .ok found →
    ∀ address ∈ found, address.port = 0

/-- What `HeaderValue::from_str` takes: visible ASCII, the space and the tab. -/
def isHeaderText (text : Text) : Bool :=
  text.all fun c => (32 ≤ c.toNat && c.toNat < 127) || c = '\t'

/--
What `reqwest` does with a URL of the web and a resolver that leaves the port to
it, on a connection of its own: a host that is an address is connected to as it
stands; of a name only addresses the resolver returned are connected to, with the
port of the URL, and if the request can be sent at all the first of them is.
-/
structure ConnectContract : Prop where
  literal :
    ∀ (resolver : Resolver) (url : ParsedUrl) (accept host : Text)
      (port : UInt16) (ip : IpAddr),
      IsWebUrl url →
      url.hostStr = some host →
      url.portOrKnownDefault = some port →
      ipLiteral host = some ip →
      ∀ address ∈ (HttpClient.send resolver url accept).connections,
        address = ⟨ip, port⟩
  resolved :
    ∀ (resolver : Resolver) (url : ParsedUrl) (accept host : Text)
      (port : UInt16),
      IsWebUrl url →
      LeavesPort resolver →
      url.hostStr = some host →
      url.portOrKnownDefault = some port →
      ipLiteral host = none →
      ∀ address ∈ (HttpClient.send resolver url accept).connections,
        address.port = port ∧
          ∃ found,
            resolver host = .ok found ∧
              address.ip ∈ found.map SocketAddr.ip
  tried :
    ∀ (resolver : Resolver) (url : ParsedUrl) (accept host : Text)
      (port : UInt16) (first : SocketAddr) (others : List SocketAddr),
      IsWebUrl url →
      LeavesPort resolver →
      isHeaderText accept = true →
      url.hostStr = some host →
      url.portOrKnownDefault = some port →
      ipLiteral host = none →
      resolver host = .ok (first :: others) →
      (⟨first.ip, port⟩ : SocketAddr) ∈
        (HttpClient.send resolver url accept).connections

/-! ## The two screens -/

omit [UrlLibrary] [HttpClient] in
/-- A set of addresses passes with a forbidden one only by an exemption. -/
theorem allowPrivate_of_screenAddresses
    {resolved screened : List SocketAddr} {allowPrivate : Bool}
    (passes : screenAddresses resolved allowPrivate = .ok screened) :
    screened = resolved ∧
      ∀ address ∈ resolved,
        isForbiddenIp address.ip = true → allowPrivate = true := by
  obtain ⟨_, _, rest⟩ := bind_eq_ok passes
  obtain ⟨_, screens, rest⟩ := bind_eq_ok rest
  rw [refuseIf_eq_ok_iff] at screens
  cases rest
  refine ⟨rfl, fun address member isForbidden => ?_⟩
  cases allowPrivate with
  | true =>
      rfl
  | false =>
      refine (screens ?_).elim
      simp only [Bool.not_false, Bool.true_and, List.any_eq_true]
      exact ⟨address, member, isForbidden⟩

omit [UrlLibrary] [HttpClient] in
/-- Public addresses pass without an exemption. -/
theorem screenAddresses_public
    {first : SocketAddr} {allowPrivate : Bool}
    (isPublic : isForbiddenIp first.ip = false) :
    screenAddresses [first] allowPrivate = .ok [first] := by
  simp [screenAddresses, refuseIf, isPublic, bind, Except.bind, pure,
    Except.pure]

/-! ## The exemptions of an operator -/

/-- The policy of an operator's list. -/
abbrev operatorPolicy (hosts : List Text) : FetchPolicy :=
  (FetchPolicy.tryWithInsecureHosts hosts).1

/--
Whatever the lookups answer, a forbidden address is connected to only for a host
and a port the policy permits together.
-/
def PortExact (hosts : List Text) (url : Text) : Prop :=
  ∀ lookups accept,
    ∀ address ∈
      (guardedGet lookups ⟨operatorPolicy hosts⟩ url accept
        (operatorPolicy hosts)).connections,
      isForbiddenIp address.ip = true →
      ∃ parsed host,
        UrlLibrary.parse url = .ok parsed ∧
          parsed.hostStr = some host ∧
          parsed.portOrKnownDefault = some address.port ∧
          (operatorPolicy hosts).permitsInsecure host address.port = true

/--
A host that is fetched over `https` by its name, and that the operator exempted
on some port, is exempted on the port of the URL.
-/
def ExemptOnItsPort (hosts : List Text) (url : Text) : Prop :=
  ∀ parsed host port,
    UrlLibrary.parse url = .ok parsed →
    parsed.hostStr = some host →
    parsed.portOrKnownDefault = some port →
    parsed.scheme = "https".toList →
    ipLiteral host = none →
    (operatorPolicy hosts).permitsInsecureHost host = true →
    (operatorPolicy hosts).permitsInsecure host port = true

omit [HttpClient] in
/-- What has been established once a request is sent. -/
theorem preflight_eq_ok
    {lookup : Lookup} {url : Text} {policy : FetchPolicy} {parsed : ParsedUrl}
    (passes : preflight lookup url policy = .ok parsed) :
    ∃ host port allowed,
      UrlLibrary.parse url = .ok parsed ∧
        parsed.hostStr = some host ∧
        parsed.portOrKnownDefault = some port ∧
        (parsed.scheme = "https".toList ∨
          parsed.scheme = "http".toList ∧
            (policy.allowHttp = true ∨
              policy.permitsInsecure host port = true)) ∧
        resolveAllowed lookup host port policy = .ok allowed := by
  obtain ⟨found, parses, rest⟩ := bind_eq_ok passes
  obtain ⟨host, hasHost, rest⟩ := bind_eq_ok rest
  obtain ⟨port, hasPort, rest⟩ := bind_eq_ok rest
  obtain ⟨_, hasScheme, rest⟩ := bind_eq_ok rest
  obtain ⟨allowed, resolves, rest⟩ := bind_eq_ok rest
  cases rest
  rw [okOr_eq_ok_iff] at hasHost hasPort
  rw [refuseIf_eq_ok_iff, not_not] at hasScheme
  refine ⟨host, port, allowed, ?_, hasHost, hasPort, hasScheme, resolves⟩
  cases parse : UrlLibrary.parse url with
  | ok known =>
      rw [parse] at parses
      cases parses
      rfl
  | error message =>
      rw [parse] at parses
      cases parses

omit [UrlLibrary] [HttpClient] in
/-- An address that is the host itself is judged with the port. -/
theorem permits_of_resolveAllowed_literal
    {lookup : Lookup} {host : Text} {port : UInt16} {policy : FetchPolicy}
    {ip : IpAddr} {allowed : List SocketAddr}
    (isLiteral : ipLiteral host = some ip)
    (resolves : resolveAllowed lookup host port policy = .ok allowed)
    (isForbidden : isForbiddenIp ip = true) :
    policy.allowPrivateIps = true ∨
      policy.permitsInsecure host port = true := by
  obtain ⟨candidates, areCandidates, screens⟩ := bind_eq_ok resolves
  rw [candidateAddresses, isLiteral] at areCandidates
  cases areCandidates
  have exempt :=
    (allowPrivate_of_screenAddresses screens).2 ⟨ip, port⟩ (by simp)
      isForbidden
  exact (Bool.or_eq_true _ _).mp exempt

omit [UrlLibrary] [HttpClient] in
/-- What the client's resolver returns, it looked up and screened. -/
theorem policyResolver_eq_ok
    {lookup : Lookup} {host : Text} {policy : FetchPolicy}
    {found : List SocketAddr}
    (resolves : policyResolver policy lookup host = .ok found) :
    lookupHost lookup host 0 = .ok found ∧
      screenAddresses found
          (policy.allowPrivateIps || policy.permitsInsecureHost host) =
        .ok found := by
  unfold policyResolver at resolves
  cases looked : lookupHost lookup host 0 with
  | error message =>
      rw [looked] at resolves
      cases resolves
  | ok resolved =>
      rw [looked] at resolves
      cases screening :
          screenAddresses resolved
            (policy.allowPrivateIps || policy.permitsInsecureHost host) with
      | error error =>
          simp only [Except.mapError, bind, Except.bind, screening] at resolves
          cases resolves
      | ok screened =>
          simp only [Except.mapError, bind, Except.bind, screening] at resolves
          cases resolves
          obtain ⟨rfl, _⟩ := allowPrivate_of_screenAddresses screening
          exact ⟨rfl, screening⟩

omit [UrlLibrary] [HttpClient] in
theorem leavesPort_policyResolver (policy : FetchPolicy) (lookup : Lookup) :
    LeavesPort (policyResolver policy lookup) := by
  intro host found resolves address member
  have looked := (policyResolver_eq_ok resolves).1
  unfold lookupHost at looked
  cases answer : lookup host with
  | error message =>
      rw [answer] at looked
      cases looked
  | ok ips =>
      rw [answer] at looked
      cases looked
      obtain ⟨ip, _, rfl⟩ := List.mem_map.mp member
      rfl

omit [UrlLibrary] [HttpClient] in
/-- What the client's resolver returns is judged for the host alone. -/
theorem permits_of_policyResolver
    {lookup : Lookup} {host : Text} {policy : FetchPolicy}
    {found : List SocketAddr} {ip : IpAddr}
    (resolves : policyResolver policy lookup host = .ok found)
    (member : ip ∈ found.map SocketAddr.ip)
    (isForbidden : isForbiddenIp ip = true) :
    policy.allowPrivateIps = true ∨
      policy.permitsInsecureHost host = true := by
  obtain ⟨_, exempts⟩ :=
    allowPrivate_of_screenAddresses (policyResolver_eq_ok resolves).2
  obtain ⟨address, isFound, rfl⟩ := List.mem_map.mp member
  exact (Bool.or_eq_true _ _).mp (exempts address isFound isForbidden)

/-! ## When the exemptions are exact -/

theorem portExact_of_exemptOnItsPort
    (contract : ConnectContract) {hosts : List Text} {url : Text}
    (exempt : ExemptOnItsPort hosts url) :
    PortExact hosts url := by
  intro lookups accept address connected isForbidden
  unfold guardedGet at connected
  cases passing : preflight (lookups 0) url (operatorPolicy hosts) with
  | error error =>
      rw [passing] at connected
      cases connected
  | ok parsed =>
      rw [passing] at connected
      obtain ⟨host, port, allowed, parses, hasHost, hasPort, hasScheme,
        resolves⟩ := preflight_eq_ok passing
      have isWeb : IsWebUrl parsed :=
        ⟨⟨url, parses⟩, hasScheme.imp id And.left⟩
      cases isLiteral : ipLiteral host with
      | some ip =>
          obtain rfl := contract.literal _ _ _ _ _ _ isWeb hasHost hasPort
            isLiteral address connected
          rcases permits_of_resolveAllowed_literal isLiteral resolves
            isForbidden with impossible | permitted
          · cases impossible
          · exact ⟨parsed, host, parses, hasHost, hasPort, permitted⟩
      | none =>
          obtain ⟨rfl, found, resolved, member⟩ :=
            contract.resolved _ _ _ _ _ isWeb
              (leavesPort_policyResolver _ _) hasHost hasPort isLiteral address
              connected
          refine ⟨parsed, host, parses, hasHost, hasPort, ?_⟩
          rcases permits_of_policyResolver resolved member isForbidden with
            impossible | onSomePort
          · cases impossible
          · rcases hasScheme with isHttps | ⟨_, impossible | permitted⟩
            · exact exempt parsed host _ parses hasHost hasPort isHttps
                isLiteral onSomePort
            · cases impossible
            · exact permitted

/-- An address no policy forbids. -/
def publicIp : IpAddr := .v4 ⟨93, 184, 216, 34⟩

/-- An address of a private network. -/
def privateIp : IpAddr := .v4 ⟨10, 0, 0, 5⟩

omit [UrlLibrary] [HttpClient] in
theorem isForbiddenIp_publicIp : isForbiddenIp publicIp = false := by
  decide

omit [UrlLibrary] [HttpClient] in
theorem isForbiddenIp_privateIp : isForbiddenIp privateIp = true := by
  decide

/-- A name that answers publicly to the first lookup and privately after it. -/
def rebinding : Nat → Lookup
  | 0 => fun _ => .ok [publicIp]
  | _ => fun _ => .ok [privateIp]

theorem exemptOnItsPort_of_portExact
    (contract : ConnectContract) {hosts : List Text} {url : Text}
    (exact : PortExact hosts url) :
    ExemptOnItsPort hosts url := by
  intro parsed host port parses hasHost hasPort isHttps notLiteral onSomePort
  have resolves :
      resolveAllowed (rebinding 0) host port (operatorPolicy hosts) =
        .ok [⟨publicIp, port⟩] := by
    unfold resolveAllowed candidateAddresses
    rw [notLiteral]
    exact screenAddresses_public isForbiddenIp_publicIp
  have passes :
      preflight (rebinding 0) url (operatorPolicy hosts) = .ok parsed := by
    unfold preflight
    simp [parses, hasHost, hasPort, isHttps, okOr, refuseIf, resolves, bind,
      Except.bind, Except.mapError, pure, Except.pure]
  have screened :
      policyResolver (operatorPolicy hosts) (rebinding 1) host =
        .ok [⟨privateIp, 0⟩] := by
    unfold policyResolver
    rw [onSomePort, Bool.or_true]
    rfl
  have connected :
      (⟨privateIp, port⟩ : SocketAddr) ∈
        (guardedGet rebinding ⟨operatorPolicy hosts⟩ url []
          (operatorPolicy hosts)).connections := by
    unfold guardedGet
    rw [passes]
    exact contract.tried _ _ _ _ _ _ [] ⟨⟨url, parses⟩, .inl isHttps⟩
      (leavesPort_policyResolver _ _) rfl hasHost hasPort notLiteral screened
  obtain ⟨known, name, parsesTo, isHost, _, permitted⟩ :=
    exact rebinding [] _ connected isForbiddenIp_privateIp
  rw [parses] at parsesTo
  cases parsesTo
  rw [hasHost] at isHost
  cases isHost
  exact permitted

/--
The exemptions of an operator are exact on every lookup exactly for those URLs
whose host, if it is a name fetched over `https` and exempted at all, is
exempted on the port of the URL.
-/
theorem portExact_iff_exemptOnItsPort
    (contract : ConnectContract) (hosts : List Text) (url : Text) :
    PortExact hosts url ↔ ExemptOnItsPort hosts url :=
  ⟨exemptOnItsPort_of_portExact contract,
    portExact_of_exemptOnItsPort contract⟩

end Quadpod

namespace Quadpod.FetchReference

/-- A URL of one host, with nothing but a path. -/
def plainUrl (scheme path : Text) (port : UInt16) : ParsedUrl where
  scheme := scheme
  hostStr := some "idp.local".toList
  portOrKnownDefault := some port
  path := path
  username := []
  password := none
  query := none
  fragment := none

/-- A parser that knows the URLs of one host. -/
scoped instance : UrlLibrary where
  parse text :=
    if text = "http://idp.local/".toList then
      .ok (plainUrl "http".toList ['/'] 80)
    else if text = "http://idp.local:3000/".toList then
      .ok (plainUrl "http".toList ['/'] 3000)
    else if text = "https://idp.local:9999/jwks".toList then
      .ok (plainUrl "https".toList "/jwks".toList 9999)
    else
      .error "relative URL without a base".toList

/-- A client that connects to everything its resolver returns. -/
scoped instance : HttpClient where
  send resolver url _ :=
    { connections :=
        match url.hostStr, url.portOrKnownDefault with
        | some host, some port =>
            match ipLiteral host with
            | some ip => [⟨ip, port⟩]
            | none =>
                match resolver host with
                | .ok found => found.map fun address => ⟨address.ip, port⟩
                | .error _ => []
        | _, _ => []
      response := .error "connection refused".toList }

theorem connectContract : ConnectContract where
  literal resolver url accept host port ip _ hasHost hasPort isLiteral := by
    intro address connected
    simp only [HttpClient.send, hasHost, hasPort, isLiteral,
      List.mem_singleton] at connected
    exact connected
  resolved resolver url accept host port _ _ hasHost hasPort notLiteral := by
    intro address connected
    simp only [HttpClient.send, hasHost, hasPort, notLiteral] at connected
    split at connected
    · next found resolves =>
        obtain ⟨given, member, rfl⟩ := List.mem_map.mp connected
        exact ⟨rfl, found, resolves, List.mem_map.mpr ⟨given, member, rfl⟩⟩
    · cases connected
  tried resolver url accept host port first others _ _ _ hasHost hasPort
      notLiteral resolves := by
    simp [HttpClient.send, hasHost, hasPort, notLiteral, resolves]

/-- The operator exempts the host on one port. -/
def exemptOnOnePort : List Text := ["idp.local:3000".toList]

/-- The operator exempts the host on every port. -/
def exemptOnEveryPort : List Text := ["idp.local".toList]

/-- A URL of the host on a port that has no entry of its own. -/
def otherPortUrl : Text := "https://idp.local:9999/jwks".toList

/-- A host exempted on every port is reached on each of them by permission. -/
theorem portExact_everyPort : PortExact exemptOnEveryPort otherPortUrl := by
  refine (portExact_iff_exemptOnItsPort connectContract exemptOnEveryPort
    otherPortUrl).mpr ?_
  intro parsed host port parses hasHost hasPort _ _ _
  cases parses
  cases hasHost
  cases hasPort
  decide

/-- A private address is reached on a port the operator did not name. -/
theorem not_portExact_onePort :
    ¬ PortExact exemptOnOnePort otherPortUrl := by
  intro isExact
  obtain ⟨parsed, host, parses, hasHost, _, permitted⟩ :=
    isExact rebinding [] ⟨privateIp, 9999⟩ (by decide)
      isForbiddenIp_privateIp
  cases parses
  cases hasHost
  revert permitted
  decide

end Quadpod.FetchReference
