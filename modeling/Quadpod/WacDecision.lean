import Quadpod.Patch

namespace Quadpod

/-!
# The access decision

`wac/pdp.rs`: which modes an ACL document grants an agent on the resource it
governs.  The decision is pure; finding the document is the guard's business.
-/

variable [IriSyntax]

def aclNamespace : Text := "http://www.w3.org/ns/auth/acl#".toList
def aclAgentIri : Text := aclNamespace ++ "agent".toList
def aclAgentClassIri : Text := aclNamespace ++ "agentClass".toList
def aclAccessToIri : Text := aclNamespace ++ "accessTo".toList
def aclDefaultIri : Text := aclNamespace ++ "default".toList
def aclModeIri : Text := aclNamespace ++ "mode".toList
def aclReadIri : Text := aclNamespace ++ "Read".toList
def aclWriteIri : Text := aclNamespace ++ "Write".toList
def aclAppendIri : Text := aclNamespace ++ "Append".toList
def aclControlIri : Text := aclNamespace ++ "Control".toList
def aclAuthenticatedAgentIri : Text :=
  aclNamespace ++ "AuthenticatedAgent".toList
def aclAuthorizationIri : Text := aclNamespace ++ "Authorization".toList
def foafAgentIri : Text := "http://xmlns.com/foaf/0.1/Agent".toList

/-- `auth::Agent` -/
inductive Agent where
  | anonymous
  | webId (iri : Text)
  deriving DecidableEq

/-- `recognized_mode` -/
def recognizedMode (modeIri : Text) : Option Mode :=
  if modeIri = aclReadIri then some .read
  else if modeIri = aclWriteIri then some .write
  else if modeIri = aclAppendIri then some .append
  else if modeIri = aclControlIri then some .control
  else none

namespace AccessModes

/-- `AccessModes::default` -/
def none : AccessModes := ⟨false, false, false, false⟩

/-- The set with one more mode. -/
def grant (held : AccessModes) : Mode → AccessModes
  | .read => { held with read := true }
  | .write => { held with write := true }
  | .append => { held with append := true }
  | .control => { held with control := true }

end AccessModes

/-- Append a triple to the group of its subject. -/
def addToGroup (triple : Triple) :
    List (NamedOrBlankNode × List Triple) →
      List (NamedOrBlankNode × List Triple)
  | [] => [(triple.subject, [triple])]
  | (subject, triples) :: rest =>
      if subject = triple.subject then
        (subject, triples ++ [triple]) :: rest
      else
        (subject, triples) :: addToGroup triple rest

/-- `by_subject` -/
def bySubject (acl : List Triple) : List (NamedOrBlankNode × List Triple) :=
  acl.foldl (fun groups triple => addToGroup triple groups) []

/-- `has_object` -/
def hasObject (authorization : List Triple) (predicate object : Text) : Bool :=
  authorization.any fun triple =>
    triple.predicate.iri == predicate &&
      match triple.object with
      | .namedNode node => node.iri == object
      | _ => false

/-- `matches_agent` -/
def matchesAgent (authorization : List Triple) (agent : Agent) : Bool :=
  hasObject authorization aclAgentClassIri foafAgentIri ||
    match agent with
    | .anonymous => false
    | .webId webId =>
        hasObject authorization aclAgentClassIri aclAuthenticatedAgentIri ||
          hasObject authorization aclAgentIri webId

/-- The mode one triple of an authorization grants, if it grants one. -/
def grantedMode (triple : Triple) : Option Mode :=
  if triple.predicate.iri = aclModeIri then
    match triple.object with
    | .namedNode node => recognizedMode node.iri
    | _ => none
  else
    none

/-- `decide`: the modes an agent holds on what an ACL governs. -/
def decideModes
    (acl : List Triple) (agent : Agent) (governedIri : Text)
    (inherited : Bool) : AccessModes :=
  let scopePredicate := if inherited then aclDefaultIri else aclAccessToIri
  (bySubject acl).foldl
    (fun granted (_, authorization) =>
      if hasObject authorization scopePredicate governedIri &&
          matchesAgent authorization agent then
        authorization.foldl
          (fun granted triple =>
            match grantedMode triple with
            | some mode => granted.grant mode
            | none => granted)
          granted
      else
        granted)
    .none

/-- `names_someone` -/
def namesSomeone (authorization : List Triple) : Bool :=
  hasObject authorization aclAgentClassIri foafAgentIri ||
    hasObject authorization aclAgentClassIri aclAuthenticatedAgentIri ||
    authorization.any fun triple =>
      triple.predicate.iri == aclAgentIri &&
        match triple.object with
        | .namedNode _ => true
        | _ => false

/-- `has_recognized_mode` -/
def hasRecognizedMode (authorization : List Triple) : Bool :=
  authorization.any fun triple => (grantedMode triple).isSome

/-- `grants_anything` -/
def grantsAnything (acl : List Triple) (governedIri : Text) : Bool :=
  (bySubject acl).any fun (_, authorization) =>
    (hasObject authorization aclAccessToIri governedIri ||
        hasObject authorization aclDefaultIri governedIri) &&
      namesSomeone authorization && hasRecognizedMode authorization

/-- `Decision` -/
structure Decision where
  user : AccessModes
  everyone : AccessModes
  deriving DecidableEq

end Quadpod
