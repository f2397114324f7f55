import ServingPack.KeyManager.Listing
import ServingPack.KeyManager.Watcher

open golang apiserver concurrency models secrets

namespace api

/-- The authenticated user, from the claims of a verified token. -/
structure UserInfo where
  username : GoString
  subject : GoString := []
  name : GoString := []
  email : GoString := []
  groups : List GoString := []

/-- The JSON body of `POST /api/keys`. -/
structure CreateKeyRequest where
  modelName : GoString
  description : GoString := []

inductive ApiRequest where
  | getMe
  | getModels
  | getKeys
  /-- The body is `none` where it is not valid JSON. -/
  | createKey (body : Option CreateKeyRequest)
  | deleteKey («namespace» modelName clientID : GoString)

inductive Response where
  | error (status : Nat) (text : GoString)
  | me (user : UserInfo)
  | models (models : List ModelInfo)
  | keys (keys : List KeyInfo)
  | created (result : CreateKeyResult)
  | noContent

abbrev Handling := Program secrets.Request secrets.Answer Response

def internalServerError : Response := .error 500 "internal server error"

section Handlers

/-- `GET /api/keys`. -/
def getKeys (user : UserInfo) : Handling :=
  (Manager.listKeysForUser user.username).run.bind (fun
    | .error _ => .pure internalServerError
    | .ok keys => .pure (.keys keys))

/-- The user a key is minted for. -/
def UserInfo.creator (user : UserInfo) : Creator where
  username := user.username
  subject := user.subject
  groups := user.groups

/-- `POST /api/keys`, with the models cached at that time. -/
def createKey (m : Manager) (cache : GoMap ModelInfo) (user : UserInfo) :
    Option CreateKeyRequest → Handling
  | none => .pure (.error 400 "bad request: invalid JSON body")
  | some req =>
    if (filterModelsForUser cache user.groups).any (fun info => info.name = req.modelName) then
      (m.createKey req.modelName user.creator req.description).run.bind (fun
        | .error _ => .pure internalServerError
        | .ok result => .pure (.created result))
    else .pure (.error 403 "forbidden: no access to model")

/-- The listed key with this client ID and namespace. -/
def findKey (keys : List KeyInfo) («namespace» clientID : GoString) : Option KeyInfo :=
  keys.find? (fun key => key.clientID = clientID && key.namespace = «namespace»)

/-- `DELETE /api/keys/{namespace}/{model}/{clientID}`. -/
def deleteKey (user : UserInfo) («namespace» modelName clientID : GoString) : Handling :=
  (Manager.listKeys modelName).run.bind (fun
    | .error _ => .pure internalServerError
    | .ok keys =>
      match findKey keys «namespace» clientID with
      | none => .pure (.error 404 "not found")
      | some found =>
        if found.creator = user.username then
          (Manager.revokeKey modelName clientID).run.bind (fun
            | .error _ => .pure internalServerError
            | .ok _ => .pure .noContent)
        else .pure (.error 403 "forbidden: key belongs to another user"))

/-- The API behind its middleware, which leaves no user where the token is not valid. -/
def handle (m : Manager) (cache : GoMap ModelInfo) : Option UserInfo → ApiRequest → Handling
  | none, _ => .pure (.error 401 "unauthorized")
  | some user, .getMe => .pure (.me user)
  | some user, .getModels => .pure (.models (filterModelsForUser cache user.groups))
  | some user, .getKeys => getKeys user
  | some user, .createKey body => createKey m cache user body
  | some user, .deleteKey «namespace» modelName clientID =>
      deleteKey user «namespace» modelName clientID

end Handlers

/-- The key found is one of the list and has the client ID asked for. -/
theorem findKey_eq_some {keys : List KeyInfo} {«namespace» clientID : GoString} {found : KeyInfo}
    (h : findKey keys «namespace» clientID = some found) :
    found ∈ keys ∧ found.clientID = clientID := by
  have hfound := List.find?_some h
  rw [Bool.and_eq_true, decide_eq_true_eq] at hfound
  exact ⟨List.mem_of_find?_eq_some h, hfound.1⟩

end api
