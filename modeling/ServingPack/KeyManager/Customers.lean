import ServingPack.KeyManager.Keys
import ServingPack.Lib.Json
import ServingPack.Lib.Program

open golang concurrency secrets

namespace customers

/-- Why a request to OpenMeter failed. -/
inductive Failure where
  | notFound
  | other (text : GoString)
  deriving DecidableEq

/-- How a call ends that does not return a value. -/
inductive Stop where
  | failed (f : Failure)
  /-- Reading `usageAttribution`. -/
  | unmarshal
  | panicked
  deriving DecidableEq

/-- A new customer, as the sync creates it. -/
structure Customer where
  key : GoString
  name : GoString
  subjectKeys : List GoString

/-- An existing customer as OpenMeter returned it, every field kept. -/
abbrev StoredCustomer := GoMap Json

/-- `json.Unmarshal` into a `usageAttribution`. -/
def unmarshalAttribution : Json → Option (List GoString)
  | .null => some []
  | .object members => unmarshalField "subjectKeys" unmarshalStrings [] members
  | _ => none

namespace StoredCustomer

def subjectKeys (c : StoredCustomer) : Except Stop (List GoString) :=
  match c.lookup (lit "usageAttribution") with
  | none => .ok []
  | some raw =>
    match unmarshalAttribution raw with
    | some keys => .ok keys
    | none => .error .unmarshal

/-- The customer's key, or its ID if it has no key. -/
def ref (c : StoredCustomer) : GoString :=
  match c.lookup (lit "key"), c.lookup (lit "id") with
  | some (.string (k :: ks)), _ => k :: ks
  | _, some (.string (i :: is)) => i :: is
  | _, _ => "(unnamed)"

def setSubjectKeys (c : StoredCustomer) (keys : List GoString) : Except Stop StoredCustomer :=
  let ua := match c.lookup (lit "usageAttribution") with
    | none => some (some ∅)
    | some raw => unmarshalMap raw
  match ua with
  | none => .error .unmarshal
  -- the assignment to an entry of a nil map
  | some none => .error .panicked
  | some (some ua) =>
    .ok (c.insert (lit "usageAttribution")
      (marshalMap (ua.insert (lit "subjectKeys") (marshalStrings keys))))

end StoredCustomer

/-- A page of the customers whose subject keys match in part. -/
structure ListPage where
  totalCount : Int
  pageSize : Int
  items : List StoredCustomer

/-- The pages served in turn, and why the request for one more fails. -/
structure ListPages where
  pages : List ListPage
  failure : Failure

inductive Request where
  /-- The metadata of every API key, revoked ones included. -/
  | listKeys
  /-- The order in which Go visits a map's keys. -/
  | range (keys : List GoString)
  | get (key : GoString)
  | list (subject : GoString)
  | create (cust : Customer)
  | replace (key : GoString) (cust : StoredCustomer)

abbrev Answer : Request → Type
  | .listKeys => Except Failure (List KeyInfo)
  | .range keys => { order : List GoString // order.Perm keys }
  | .get _ => Except Failure StoredCustomer
  | .list _ => ListPages
  | .create _ => Except Failure Unit
  | .replace _ _ => Except Failure Unit

abbrev Call (α : Type) := Program Request Answer α

/-- What the customers of one page that hold the subject key are called. -/
def holdersOn (subjectKey : GoString) : List StoredCustomer → Except Stop (List GoString)
  | [] => .ok []
  | item :: rest =>
    match item.subjectKeys with
    | .error e => .error e
    | .ok keys =>
      match holdersOn subjectKey rest with
      | .error e => .error e
      | .ok holders => .ok (if subjectKey ∈ keys then item.ref :: holders else holders)

/-- Reads page after page, from page `page`, until one is empty or the last. -/
def readHolders (subjectKey : GoString) (failure : Failure) :
    Nat → List ListPage → Except Stop (List GoString)
  | _, [] => .error (.failed failure)
  | page, resp :: rest =>
    match holdersOn subjectKey resp.items with
    | .error e => .error e
    | .ok holders =>
      if resp.items = [] ∨ resp.totalCount ≤ page * resp.pageSize then .ok holders
      else match readHolders subjectKey failure (page + 1) rest with
        | .error e => .error e
        | .ok more => .ok (holders ++ more)

/-- The customers that hold a subject key, by key, or ID for one with no key. -/
def customersWithSubjectKey (subjectKey : GoString) : Call (Except Stop (List GoString)) :=
  (Program.ask (Request.list subjectKey)).bind (fun (answer : ListPages) =>
    .pure (readHolders subjectKey answer.failure 1 answer.pages))

/-- A key creator and the client IDs of the keys they minted. -/
structure Owner where
  username : GoString
  clientIDs : List GoString

/-- Groups one more key under its creator's subject, or counts it as skipped. -/
def addKey (grouped : GoMap Owner × Nat) (k : KeyInfo) : GoMap Owner × Nat :=
  if k.creatorSubject = [] then (grouped.1, grouped.2 + 1)
  else
    let o := (grouped.1.lookup k.creatorSubject).getD ⟨k.creator, []⟩
    (grouped.1.insert k.creatorSubject { o with clientIDs := o.clientIDs ++ [k.clientID] },
      grouped.2)

/-- The key creators by subject, and how many keys have none. -/
def groupKeys (keys : List KeyInfo) : GoMap Owner × Nat := keys.foldl addKey (∅, 0)

/-- The subject keys of `wanted` that no customer holds. What another customer than
the creator's holds is noted in `conflicts`. -/
def additions (subject : GoString) (held : List GoString) :
    List GoString → GoMap GoString → Call (Except Stop (List GoString) × GoMap GoString)
  | [], conflicts => .pure (.ok [], conflicts)
  | k :: rest, conflicts =>
    if k ∈ held then additions subject held rest conflicts
    else (customersWithSubjectKey k).bind (fun holders =>
      match holders with
      | .error e => .pure (.error e, conflicts)
      | .ok (holder :: _) =>
        additions subject held rest
          (if holder ≠ subject then conflicts.insert k holder else conflicts)
      | .ok [] => (additions subject held rest conflicts).bind
          (fun out => .pure (out.1.map (k :: ·), out.2)))

/-- Writes the subject keys that are missing to the creator's customer; `existing` is
none where it is new. -/
def writeAdditions (subject : GoString) (o : Owner) (existing : Option StoredCustomer)
    (held add : List GoString) :
    Call (Except Stop Unit) :=
  if add = [] then .pure (.ok ())
  else match existing with
    | none =>
      (Program.ask (Request.create ⟨subject, o.username, sortStrings add⟩)).bind
        (fun (answer : Except Failure Unit) =>
        .pure (answer.mapError .failed))
    | some existing =>
      match existing.setSubjectKeys (sortStrings (held ++ add)) with
      | .error e => .pure (.error e)
      | .ok cust =>
        (Program.ask (Request.replace subject cust)).bind (fun (answer : Except Failure Unit) =>
          .pure (answer.mapError .failed))

/-- Adds the subject keys the customer is missing; `existing` is none where it is new. -/
def addMissing (subject : GoString) (o : Owner) (conflicts : GoMap GoString)
    (existing : Option StoredCustomer) :
    Call (Except Stop Unit × GoMap GoString) :=
  match (existing.getD ∅).subjectKeys with
  | .error e => .pure (.error e, conflicts)
  | .ok held =>
    (additions subject held (subject :: o.clientIDs) conflicts).bind (fun out =>
      match out with
      | (.error e, conflicts') => .pure (.error e, conflicts')
      | (.ok add, conflicts') =>
        (writeAdditions subject o existing held add).bind
          (fun result => .pure (result, conflicts')))

/-- Adds the subject keys the creator's customer is missing, noting in `conflicts`
each one that another customer holds instead of adding it. -/
def syncOwner (subject : GoString) (o : Owner) (conflicts : GoMap GoString) :
    Call (Except Stop Unit × GoMap GoString) :=
  (Program.ask (Request.get subject)).bind (fun (answer : Except Failure StoredCustomer) =>
    match answer with
    | .error .notFound => addMissing subject o conflicts none
    | .error f => .pure (.error (.failed f), conflicts)
    | .ok existing => addMissing subject o conflicts (some existing))

/-- The creators' customers one after the other; a panic ends the sync, an error does not. -/
def syncOwners (owners : GoMap Owner) : List GoString → GoMap GoString →
    Call (Except Stop (List (GoString × Stop) × GoMap GoString))
  | [], conflicts => .pure (.ok ([], conflicts))
  | subject :: rest, conflicts =>
    match owners.lookup subject with
    | none => syncOwners owners rest conflicts
    | some o => (syncOwner subject o conflicts).bind (fun out =>
      match out with
      | (.error .panicked, _) => .pure (.error .panicked)
      | (result, conflicts') => (syncOwners owners rest conflicts').bind (fun others =>
        .pure (others.map (fun others => (match result with
          | .error e => (subject, e) :: others.1
          | .ok () => others.1, others.2)))))

/-- What the sync remembers to warn only on change: the keys left out, and the
conflicts found, by the previous sync. -/
structure CustomerSync where
  lastSkipped : Nat
  lastConflicts : GoMap GoString

inductive Warning where
  | skipped (keys : Nat)
  | conflict (subjectKey heldBy : GoString)

/-- What a sync ends with: the customers that failed, and what it warned of. -/
structure Synced where
  state : CustomerSync
  errors : List (GoString × Stop)
  warnings : List Warning

/-- The conflicts that the previous sync has not found, sorted: Go leaves the order open. -/
def newConflicts (last conflicts : GoMap GoString) : List Warning :=
  conflicts.sortedKeys.filterMap (fun k => (conflicts.lookup k).bind (fun holder =>
    if (last.lookup k).getD [] ≠ holder then some (.conflict k holder) else none))

/-- Makes sure every key creator has a customer holding their subject and all their
keys' client IDs. -/
def sync (s : CustomerSync) : Call (Except Stop Synced) :=
  (Program.ask Request.listKeys).bind (fun (answer : Except Failure (List KeyInfo)) =>
    match answer with
    | .error f => .pure (.error (.failed f))
    | .ok keys =>
      let owners := (groupKeys keys).1
      let skipped := (groupKeys keys).2
      (Program.ask (Request.range owners.sortedKeys)).bind
        (fun (order : { order : List GoString // order.Perm _ }) =>
        (syncOwners owners order.val ∅).bind (fun out => .pure (out.map (fun (errors, conflicts) =>
          { state := ⟨skipped, conflicts⟩
            errors := errors
            warnings := (if skipped ≠ s.lastSkipped ∧
              0 < skipped then [.skipped skipped] else []) ++
              newConflicts s.lastConflicts conflicts })))))

end customers
