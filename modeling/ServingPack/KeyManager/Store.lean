import ServingPack.KeyManager.Keys
import ServingPack.Kube.Objects
import ServingPack.Lib.ApiServer.Exec

open golang apiserver kube

namespace secrets

/-- No two models share a Secret. -/
theorem secretName_injective {modelName modelName' : GoString}
    (h : secretName modelName = secretName modelName') :
    modelName = modelName' := List.append_cancel_right h

/-- And no two share a ConfigMap. -/
theorem configMapName_injective {modelName modelName' : GoString}
    (h : configMapName modelName = configMapName modelName') : modelName = modelName' :=
  List.append_cancel_right h

/-- A write of a data map, and who has made it. -/
structure Write (V : Type) where
  request : Nat
  name : GoString
  before : GoMap V
  after : GoMap V

/-- The data of a Secret, none where it does not exist. -/
def secretData (s : Cluster) (name : GoString) : GoMap GoString :=
  ((s.lookup .secret name).map (fun secret => secret.body.data)).getD ∅

/-- The data of a ConfigMap, none where it does not exist. -/
def metadata (s : Cluster) (name : GoString) : GoMap Entry :=
  ((s.lookup .configMap name).map (fun cm => cm.body.data)).getD ∅

section Data

variable {s s' : Cluster} {name : GoString}

/-- The keys of a Secret that is there. -/
theorem secretData_of_lookup {secret : Object SecretBody}
    (h : s.lookup .secret name = some secret) :
    secretData s name = secret.body.data := by
  rw [secretData, h]
  rfl

/-- The entries of a ConfigMap that is there. -/
theorem metadata_of_lookup {cm : Object ConfigMapBody} (h : s.lookup .configMap name = some cm) :
    metadata s name = cm.body.data := by
  rw [metadata, h]
  rfl

/-- The keys rest on the Secret alone. -/
theorem secretData_congr (h : s'.lookup .secret name = s.lookup .secret name) :
    secretData s' name = secretData s name := by
  rw [secretData, h]
  rfl

/-- The entries rest on the ConfigMap alone. -/
theorem metadata_congr (h : s'.lookup .configMap name = s.lookup .configMap name) :
    metadata s' name = metadata s name := by
  rw [metadata, h]
  rfl

/-- A request that is about another object leaves a Secret's keys, failed or not. -/
theorem exec_secretData {request : apiserver.Request Body} {a : apiserver.Answer request}
    (hexec : Exec (fun _ => False) s request a s')
    (htarget : request.target ≠ some (.secret, name)) :
    secretData s' name = secretData s name := secretData_congr (hexec.frame htarget)

/-- And it leaves a ConfigMap's entries. -/
theorem exec_metadata {request : apiserver.Request Body} {a : apiserver.Answer request}
    (hexec : Exec (fun _ => False) s request a s')
    (htarget : request.target ≠ some (.configMap, name)) :
    metadata s' name = metadata s name := metadata_congr (hexec.frame htarget)

/-- An update from a copy that leaves the data as they are changes no data. -/
theorem update_secretData {copy submitted : Object SecretBody}
    {a : apiserver.Answer (.update Kind.secret name submitted)}
    (hexec : Exec (fun _ => False) s (.update Kind.secret name submitted) a s')
    (hunfinished : s.Unfinished)
    (hpast : ∀ current : Object SecretBody, s.lookup .secret name = some current →
      current.metadata.resourceVersion = copy.metadata.resourceVersion → current = copy)
    (hcopied : submitted.metadata.resourceVersion = copy.metadata.resourceVersion)
    (hfinalizers : submitted.metadata.finalizers = copy.metadata.finalizers)
    (hdata : submitted.body.data = copy.body.data) :
    secretData s' name = secretData s name := by
  rcases hexec.update_copy copy hunfinished hpast hcopied hfinalizers
    with ⟨hsame, _⟩ | ⟨hlookup, object, hobject, hbody⟩
  · exact secretData_congr hsame
  · rw [secretData_of_lookup hlookup, secretData_of_lookup hobject, ← hdata]
    exact congrArg SecretBody.data hbody

/-- Writing back the data that was read changes no entry, since the server refuses a stale copy.
-/
theorem update_metadata {copy submitted : Object ConfigMapBody}
    {a : apiserver.Answer (.update Kind.configMap name submitted)}
    (hexec : Exec (fun _ => False) s (.update Kind.configMap name submitted) a s')
    (hunfinished : s.Unfinished)
    (hpast : ∀ current : Object ConfigMapBody, s.lookup .configMap name = some current →
      current.metadata.resourceVersion = copy.metadata.resourceVersion → current = copy)
    (hcopied : submitted.metadata.resourceVersion = copy.metadata.resourceVersion)
    (hfinalizers : submitted.metadata.finalizers = copy.metadata.finalizers)
    (hdata : submitted.body.data = copy.body.data) :
    metadata s' name = metadata s name := by
  rcases hexec.update_copy copy hunfinished hpast hcopied hfinalizers
    with ⟨hsame, _⟩ | ⟨hlookup, object, hobject, hbody⟩
  · exact metadata_congr hsame
  · rw [metadata_of_lookup hlookup, metadata_of_lookup hobject, ← hdata]
    exact congrArg ConfigMapBody.data hbody

/-- Creating a Secret without data adds no data. -/
theorem create_secretData {submitted : Object SecretBody}
    {a : apiserver.Answer (.create Kind.secret name submitted)}
    (hexec : Exec (fun _ => False) s (.create Kind.secret name submitted) a s')
    (hempty : submitted.body.data = ∅) :
    secretData s' name = secretData s name := by
  rcases hexec.create with hsame | ⟨hnone, hstored⟩
  · exact secretData_congr hsame
  · rw [secretData_of_lookup hstored, secretData, hnone]
    exact hempty

/-- Creating an empty ConfigMap changes no entry: there was none, or the request fails. -/
theorem create_metadata {submitted : Object ConfigMapBody}
    {a : apiserver.Answer (.create Kind.configMap name submitted)}
    (hexec : Exec (fun _ => False) s (.create Kind.configMap name submitted) a s')
    (hempty : submitted.body.data = ∅) :
    metadata s' name = metadata s name := by
  rcases hexec.create with hsame | ⟨hnone, hstored⟩
  · exact metadata_congr hsame
  · rw [metadata_of_lookup hstored, metadata, hnone]
    exact hempty

end Data

end secrets
