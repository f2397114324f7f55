import ServingPack.Kube.Objects

open golang apiserver kube

namespace envoy

/-- The value Envoy Gateway holds for a client ID: of the referenced Secrets
that carry it the first one counts. -/
def credential (s : Cluster) (refs : List GoString) (clientID : GoString) : Option GoString :=
  refs.findSome? (fun ref =>
    (s.lookup .secret ref).bind (fun secret => secret.body.data.lookup clientID))

/-- A request with this key passes the API-key filter as this client. -/
def Authenticates (s : Cluster) (auth : APIKeyAuth) (key clientID : GoString) : Prop :=
  credential s auth.credentialRefs clientID = some key

/-- Whether a principal is met by a request whose only identity is a header. -/
def Principal.holds (header value : GoString) : Principal → Bool
  | .headers name values => name == header && values.contains value
  | .jwt _ _ _ _ => false

/-- The action of the first rule that holds, or the default one. -/
def decideAction (authorization : Authorization) (header value : GoString) : Action :=
  match authorization.rules.find? (fun rule => Principal.holds header value rule.principal) with
  | some rule => rule.action
  | none => authorization.defaultAction

/-- A request with this key is let through: it authenticates as some client
whose forwarded ID the authorization allows. -/
def Authorized (s : Cluster) (policy : SecurityPolicySpec) (key : GoString) : Prop :=
  ∃ auth authorization clientID, policy.apiKeyAuth = some auth ∧
    policy.authorization = some authorization ∧
    Authenticates s auth key clientID ∧
      decideAction authorization auth.forwardClientIDHeader clientID = .allow

/-- What a token that its provider verified claims, as far as the claims are texts. -/
structure Token where
  claims : GoMap (List GoString)

/-- Whether a principal is met by a verified token: one of its values is claimed. -/
def Principal.holdsToken (provider : GoString) (token : Token) : Principal → Bool
  | .headers _ _ => false
  | .jwt provider' claim _ values =>
      provider' == provider && ((token.claims.lookup claim).getD []).any (values.contains ·)

def decideToken (authorization : Authorization) (provider : GoString) (token : Token) : Action :=
  match authorization.rules.find? (fun rule => Principal.holdsToken provider token rule.principal)
    with
  | some rule => rule.action
  | none => authorization.defaultAction

/-- A request with a token that the policy's provider verified is let through:
there is no authorization, or it allows the token. -/
def TokenAuthorized (policy : SecurityPolicySpec) (token : Token) : Prop :=
  ∃ jwt, policy.jwt = some jwt ∧
    ∀ authorization, policy.authorization = some authorization →
      decideToken authorization jwt.name token = .allow

end envoy
