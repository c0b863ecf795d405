import AudioServer.Foundations.Refinements
import AudioServer.Services.StorageKeys

/-! The methods of the backend on a tree of directories. What the tree holds at the places of the
layout is the store of the file system calls, whatever the workers do in their workspaces. -/

namespace AudioServer.Services.StorageTree

open AudioServer.Foundations.Outcomes AudioServer.Foundations.Strings AudioServer.Foundations.Uuids
open AudioServer.Foundations.Pools AudioServer.Foundations.Runs AudioServer.Foundations.Contention
open AudioServer.Foundations.Refinements AudioServer.Foundations.Trees
open AudioServer.Db.Models AudioServer.Services.Storage AudioServer.Services.ObjectFiles
open AudioServer.Services.StorageKeys

abbrev FileTree := Tree Text Object

def directoryTaken : Exn := .other "FileExistsError"

section Methods

variable (mkstemp : Mkstemp)

def touch (tree : FileTree) (path : Place) (next : Point) : Point :=
  if (tree path).isSome then next else .raised .fileNotFound

def createStagedUpload (upload : StagedUpload) (tree : FileTree) : Point → FileTree × Point
  | .start =>
    match create tree (stagedPlace mkstemp upload.name) upload.object with
    | some tree => (tree, .returned .done)
    | none => (tree, .raised .fileNotFound)
  | point => (tree, point)

def discardStaged (staged : StagedUpload) (tree : FileTree) : Point → FileTree × Point
  | .start => (unlink tree (stagedPlace mkstemp staged.name), .returned .done)
  | point => (tree, point)

def putOriginal (staged : StagedUpload) (key : StorageKey) (destination : Place) (tree : FileTree) :
    Point → FileTree × Point
  | .start =>
    match link tree (stagedPlace mkstemp staged.name) destination with
    | .ok tree => (tree, .sweep ⟨key, staged.object⟩)
    | .error .taken => (tree, .compare)
    | .error .missing => (tree, .raised .fileNotFound)
  | .compare =>
    match content tree destination with
    | none => (tree, .raised .fileNotFound)
    | some existing => (tree,
        if existing = staged.object then .chmod ⟨key, existing⟩ else .raised .storageConflict)
  | .chmod stored => (tree, touch tree destination (.fsync stored))
  | .fsync stored => (tree, touch tree destination (.sweep stored))
  | .sweep stored => (unlink tree (stagedPlace mkstemp staged.name), .returned (.stored stored))
  | point => (tree, point)

/-- The file may be missing, the directory that is flushed may not. -/
def delete (path : Place) (tree : FileTree) : Point → FileTree × Point
  | .start => (unlink tree path, .flush)
  | .flush => (tree,
      if IsDirectory tree path.dropLast then .returned .done else .raised .fileNotFound)
  | point => (tree, point)

def stageDelete (key : StorageKey) (name : ℕ) (source : Place) (tree : FileTree) :
    Point → FileTree × Point
  | .start => (tree,
      match tree source with
      | none => .returned (.deletion ⟨key, none⟩)
      | some .directory => .raised storageError
      | some (.file _) => .replace)
  | .replace =>
    match rename tree source (quarantinePlace name) with
    | none => (tree, .raised .fileNotFound)
    | some tree => (tree, .chmodMoved)
  | .chmodMoved => (tree, touch tree (quarantinePlace name) .fsyncMoved)
  | .fsyncMoved => (tree, touch tree (quarantinePlace name) (.returned (.deletion ⟨key, some name⟩)))
  | point => (tree, point)

def restoreStagedDelete (deletion : StagedDeletion) (destination : Place) (tree : FileTree) :
    Point → FileTree × Point
  | .start =>
    match deletion.quarantine with
    | none => (tree, .returned .done)
    | some name =>
      match link tree (quarantinePlace name) destination with
      | .ok tree => (tree, .unlink)
      | .error .taken => (tree, .raised .storageConflict)
      | .error .missing => (tree, .raised .fileNotFound)
  | .unlink =>
    match deletion.quarantine with
    | none => (tree, .unlink)
    | some name =>
      match content tree (quarantinePlace name) with
      | none => (tree, .raised .fileNotFound)
      | some _ => (unlink tree (quarantinePlace name), .returned .done)
  | point => (tree, point)

def finalizeStagedDelete (deletion : StagedDeletion) (tree : FileTree) : Point → FileTree × Point
  | .start =>
    match deletion.quarantine with
    | none => (tree, .returned .done)
    | some name => (unlink tree (quarantinePlace name), .returned .done)
  | point => (tree, point)

/-- The path a method works on. A restore of nothing returns before it looks at its key. -/
def resolved : Request → Except Exn Place
  | .putOriginal _ key | .delete key | .stageDelete key _ => resolveKey (keyText key)
  | .restoreStagedDelete ⟨key, some _⟩ => resolveKey (keyText key)
  | _ => .ok []

def directoryOf (path : Place) : Request → Place
  | .putOriginal _ _ | .restoreStagedDelete _ => path.dropLast
  | .stageDelete _ _ => deletionRoot
  | _ => []

def ensures : Request → Point → Bool
  | .putOriginal _ _, .start => true
  | .restoreStagedDelete deletion, .start => deletion.quarantine.isSome
  | .stageDelete _ _, .replace => true
  | _, _ => false

def operate (path : Place) (tree : FileTree) (point : Point) : Request → FileTree × Point
  | .createStagedUpload upload => createStagedUpload mkstemp upload tree point
  | .putOriginal staged key => putOriginal mkstemp staged key path tree point
  | .discardStaged staged => discardStaged mkstemp staged tree point
  | .delete _ => delete path tree point
  | .stageDelete key name => stageDelete key name path tree point
  | .restoreStagedDelete deletion => restoreStagedDelete deletion path tree point
  | .finalizeStagedDelete deletion => finalizeStagedDelete deletion tree point

/-- A call of the backend, with the levels of its directory made so far. -/
structure TreeCall where
  request : Request
  made : ℕ
  point : Point

def TreeCall.advance (call : TreeCall) (tree : FileTree) : FileTree × TreeCall :=
  match resolved call.request with
  | .error exn => (tree, { call with point := .raised exn })
  | .ok path =>
    let directory := directoryOf path call.request
    if ensures call.request call.point ∧ call.made < directory.length then
      match mkdir tree (directory.take (call.made + 1)) with
      | some tree => (tree, { call with made := call.made + 1 })
      | none => (tree, { call with point := .raised directoryTaken })
    else
      let next := operate mkstemp path tree call.point call.request
      (next.1, { call with point := next.2 })

end Methods

section Workspaces

def ensurePrivateDirectory (directory : Place) (tree : FileTree) : Except Exn FileTree :=
  (List.range directory.length).foldlM
    (fun tree made => found (mkdir tree (directory.take (made + 1))) directoryTaken) tree

def workspace (jobId claimToken : Uuid) : Place := workRoot ++ [jobId.text, claimToken.text]

def makeLevel (tree : FileTree) (path : Place) : FileTree := (mkdir tree path).getD tree

def workDirectory (jobId claimToken : Uuid) (tree : FileTree) : Except Exn FileTree := do
  let path ← resolveKey (workText jobId claimToken)
  ensurePrivateDirectory path tree

def deleteWorkspaces (jobIds : List Uuid) (tree : FileTree) : Except Exn FileTree :=
  jobIds.foldlM (fun tree jobId => do
    let path ← resolveKey (workspaceText jobId)
    .ok (removeTree tree path)) tree

end Workspaces

structure ScratchEntry where
  jobId : Uuid
  claimToken : Uuid
  part : Text
  rest : Place

def ScratchEntry.below (entry : ScratchEntry) : Place :=
  entry.claimToken.text :: entry.part :: entry.rest

def ScratchEntry.place (entry : ScratchEntry) : Place :=
  workRoot ++ entry.jobId.text :: entry.below

lemma ScratchEntry.inWorkspace (entry : ScratchEntry) : InWorkspace entry.place := ⟨_, _, _, _, rfl⟩

/-- The methods take their steps in any order. The workers make the levels of their workspaces and
do as they like below, and the entries of a workspace are removed one by one. -/
inductive TreeAct
  | begin (request : Request)
  | step (i : ℕ)
  | makeLevel (jobId claimToken : Uuid) (level : ℕ)
  | scratch (entry : ScratchEntry) (node : Option (Node Object))
  | remove (jobId : Uuid) (rest : Place)

abbrev TreeStore := Pool FileTree TreeCall

def RequestNamed : Request → Prop
  | .createStagedUpload _ | .discardStaged _ => True
  | .putOriginal _ key | .delete key => KeyNamed key
  | .stageDelete key name => KeyNamed key ∧ name < 16 ^ 32
  | .restoreStagedDelete deletion | .finalizeStagedDelete deletion =>
    KeyNamed deletion.key ∧ ∀ name ∈ deletion.quarantine, name < 16 ^ 32

instance : (request : Request) → Decidable (RequestNamed request)
  | .createStagedUpload _ | .discardStaged _ => inferInstanceAs (Decidable True)
  | .putOriginal _ key | .delete key => inferInstanceAs (Decidable (KeyNamed key))
  | .stageDelete _ _ => inferInstanceAs (Decidable (_ ∧ _))
  | .restoreStagedDelete _ | .finalizeStagedDelete _ =>
    inferInstanceAs (Decidable (_ ∧ ∀ name ∈ _, _))

def TreeCall.ready (_ : TreeStore) (call : TreeCall) : Prop := ¬ call.point.ended

instance (store : TreeStore) (call : TreeCall) : Decidable (TreeCall.ready store call) :=
  inferInstanceAs (Decidable (¬ _))

def TreeCall.seen (call : TreeCall) : FileCall := ⟨call.request, call.point⟩

section System

variable (mkstemp : Mkstemp)

def seen (store : TreeStore) : Store :=
  ⟨view (layout mkstemp) store.shared, store.calls.map TreeCall.seen⟩

def allows (store : TreeStore) : TreeAct → Prop
  | .begin request => CanBegin (seen mkstemp store) request ∧ RequestNamed request
  | .step i => Pool.allows TreeCall.ready store i
  | _ => True

instance (store : TreeStore) : (act : TreeAct) → Decidable (allows mkstemp store act)
  | .begin _ => inferInstanceAs (Decidable (_ ∧ _))
  | .step i => inferInstanceAs (Decidable (Pool.allows TreeCall.ready store i))
  | .makeLevel _ _ _ | .scratch _ _ | .remove _ _ => inferInstanceAs (Decidable True)

def perform (store : TreeStore) : TreeAct → TreeStore
  | .begin request => ⟨store.shared, store.calls ++ [⟨request, 0, .start⟩]⟩
  | .step i => Pool.perform (TreeCall.advance mkstemp) store i
  | .makeLevel jobId claimToken level =>
    ⟨makeLevel store.shared ((workspace jobId claimToken).take level), store.calls⟩
  | .scratch entry node => ⟨Function.update store.shared entry.place node, store.calls⟩
  | .remove jobId rest =>
    ⟨Function.update store.shared (workRoot ++ jobId.text :: rest) none, store.calls⟩

def TreeStep (store : TreeStore) (act : TreeAct) (store' : TreeStore) : Prop :=
  allows mkstemp store act ∧ store' = perform mkstemp store act

abbrev TreeRun := Run (TreeStep mkstemp)

def TreeStore.fresh : TreeStore where
  shared := fun path =>
    if path ∈ [[], stagingRoot, recordingsRoot, workRoot] then some .directory else none
  calls := []

def FlushFails (i : ℕ) (e : Event TreeStore TreeAct) : Prop :=
  (e.before.calls[i]?).map TreeCall.point = some .flush ∧
    (e.after.calls[i]?).map TreeCall.point = some (.raised .fileNotFound)

instance (i : ℕ) (e : Event TreeStore TreeAct) : Decidable (FlushFails i e) :=
  inferInstanceAs (Decidable (_ ∧ _))

def seenAs (e : Event TreeStore TreeAct) : Option StoreAct :=
  match e.label with
  | .begin request => some (.begin request)
  | .step i => some (if FlushFails i e then .missing i else .step i)
  | _ => none

/-- The calls that make the directory of a key before they bring a file there. -/
def Publishes (key : StorageKey) : Request → Prop
  | .putOriginal _ other => other = key
  | .restoreStagedDelete deletion => deletion.quarantine.isSome ∧ deletion.key = key
  | _ => False

end System

section Operations

variable {mkstemp : Mkstemp} {tree : FileTree} {point : Point} {staged : StagedUpload}
  {key : StorageKey} {name : ℕ}

structure Matches (mkstemp : Mkstemp) (tree : FileTree) (result : FileTree × Point)
    (files : Disk × Point) : Prop where
  files : (view (layout mkstemp) result.1, result.2) = files
  laid : Laid (layout mkstemp) result.1
  kept : KeepsDirectories tree result.1

lemma Matches.same (hlaid : Laid (layout mkstemp) tree) :
    Matches mkstemp tree (tree, point) (view (layout mkstemp) tree, point) :=
  ⟨rfl, hlaid, fun _ h => h⟩

lemma placed_staged (mkstemp : Mkstemp) (name : ℕ) :
    (layout mkstemp).place (.staged name) = some (stagedPlace mkstemp name) :=
  placed_named (show Named (.staged name) from trivial)

lemma placed_original (mkstemp : Mkstemp) (h : KeyNamed key) :
    (layout mkstemp).place (.original key) = some (originalPlace key) :=
  placed_named (show Named (.original key) from h)

lemma placed_quarantine (mkstemp : Mkstemp) (h : name < 16 ^ 32) :
    (layout mkstemp).place (.quarantine name) = some (quarantinePlace name) :=
  placed_named (show Named (.quarantine name) from h)

lemma touch_seen (hlaid : Laid (layout mkstemp) tree) {path : ObjectFiles.Path} {place : Place}
    (hplace : (layout mkstemp).place path = some place) (next : Point) :
    touch tree place next = ObjectFiles.touch (view (layout mkstemp) tree) path next := by
  have hsome : (tree place).isSome = (view (layout mkstemp) tree path).isSome := by
    rw [view_at hplace, content]
    rcases hentry : tree place with _ | _ | object
    · rfl
    · exact absurd hentry (hlaid.directories path place hplace)
    · rfl
  rw [touch, ObjectFiles.touch, hsome]

lemma createStagedUpload_matches (hlaid : Laid (layout mkstemp) tree)
    (hroot : IsDirectory tree stagingRoot) (upload : StagedUpload) :
    Matches mkstemp tree (createStagedUpload mkstemp upload tree point)
      (ObjectFiles.createStagedUpload upload (view (layout mkstemp) tree) point) := by
  cases point with
  | start =>
    have hplace := placed_staged mkstemp upload.name
    have hview := view_create (c := upload.object) hplace hroot
    rw [createStagedUpload, ObjectFiles.createStagedUpload]
    rcases hcreate : create tree (stagedPlace mkstemp upload.name) upload.object with _ | tree'
    · rw [hcreate] at hview
      cases hview
    · rw [hcreate, Option.map_some, Option.some.injEq] at hview
      obtain ⟨hlaid', hkept⟩ := hlaid.create hplace hcreate
      exact ⟨by rw [hview], hlaid', hkept⟩
  | _ => exact .same hlaid

lemma unlink_matches (hlaid : Laid (layout mkstemp) tree) {path : ObjectFiles.Path} {place : Place}
    (hplace : (layout mkstemp).place path = some place) (next : Point) :
    Matches mkstemp tree (unlink tree place, next)
      (Foundations.Files.unlink (view (layout mkstemp) tree) path, next) := by
  obtain ⟨hlaid', hkept⟩ := hlaid.unlink hplace
  exact ⟨by rw [view_unlink hplace], hlaid', hkept⟩

lemma discardStaged_matches (hlaid : Laid (layout mkstemp) tree) (staged : StagedUpload) :
    Matches mkstemp tree (discardStaged mkstemp staged tree point)
      (ObjectFiles.discardStaged staged (view (layout mkstemp) tree) point) := by
  cases point with
  | start => exact unlink_matches hlaid (placed_staged mkstemp staged.name) _
  | _ => exact .same hlaid

lemma putOriginal_matches (hlaid : Laid (layout mkstemp) tree) (hkey : KeyNamed key)
    (hparent : point = .start → IsDirectory tree (originalPlace key).dropLast) :
    Matches mkstemp tree (putOriginal mkstemp staged key (originalPlace key) tree point)
      (ObjectFiles.putOriginal staged key (view (layout mkstemp) tree) point) := by
  have hstaged := placed_staged mkstemp staged.name
  have horiginal := placed_original mkstemp hkey
  cases point with
  | start =>
    have hview := view_link hstaged horiginal (hparent rfl) (hlaid.directories _ _ horiginal)
    rw [putOriginal, ObjectFiles.putOriginal, ← hview]
    rcases hlink : link tree (stagedPlace mkstemp staged.name) (originalPlace key) with _ | tree'
    · rename_i error
      cases error with
      | missing => exact .same hlaid
      | taken => exact .same hlaid
    · obtain ⟨hlaid', hkept⟩ := hlaid.link horiginal hlink
      exact ⟨rfl, hlaid', hkept⟩
  | compare =>
    rw [putOriginal, ObjectFiles.putOriginal, view_at horiginal]
    rcases content tree (originalPlace key) with _ | existing
    · exact .same hlaid
    · exact .same hlaid
  | chmod stored =>
    rw [putOriginal, ObjectFiles.putOriginal, touch_seen hlaid horiginal]
    exact .same hlaid
  | fsync stored =>
    rw [putOriginal, ObjectFiles.putOriginal, touch_seen hlaid horiginal]
    exact .same hlaid
  | sweep stored => exact unlink_matches hlaid hstaged _
  | _ => exact .same hlaid

lemma delete_matches (hlaid : Laid (layout mkstemp) tree) (hkey : KeyNamed key)
    (hparent : point = .flush → IsDirectory tree (originalPlace key).dropLast) :
    Matches mkstemp tree (delete (originalPlace key) tree point)
      (ObjectFiles.delete key (view (layout mkstemp) tree) point) := by
  cases point with
  | start => exact unlink_matches hlaid (placed_original mkstemp hkey) _
  | flush =>
    rw [delete, if_pos (hparent rfl)]
    exact .same hlaid
  | _ => exact .same hlaid

lemma stageDelete_matches (hlaid : Laid (layout mkstemp) tree) (hkey : KeyNamed key)
    (hname : name < 16 ^ 32) (hparent : point = .replace → IsDirectory tree deletionRoot) :
    Matches mkstemp tree (stageDelete key name (originalPlace key) tree point)
      (ObjectFiles.stageDelete key name (view (layout mkstemp) tree) point) := by
  have horiginal := placed_original mkstemp hkey
  have hquarantine := placed_quarantine mkstemp hname
  cases point with
  | start =>
    rw [stageDelete, ObjectFiles.stageDelete, view_at horiginal, content]
    rcases hentry : tree (originalPlace key) with _ | _ | object
    · exact .same hlaid
    · exact absurd hentry (hlaid.directories _ _ horiginal)
    · exact .same hlaid
  | replace =>
    have hview := view_rename horiginal hquarantine (hparent rfl) (hlaid.directories _ _ hquarantine)
    rw [stageDelete, ObjectFiles.stageDelete, ← hview]
    rcases hrename : rename tree (originalPlace key) (quarantinePlace name) with _ | tree'
    · exact .same hlaid
    · obtain ⟨hlaid', hkept⟩ := hlaid.rename horiginal hquarantine hrename
      exact ⟨rfl, hlaid', hkept⟩
  | chmodMoved =>
    rw [stageDelete, ObjectFiles.stageDelete, touch_seen hlaid hquarantine]
    exact .same hlaid
  | fsyncMoved =>
    rw [stageDelete, ObjectFiles.stageDelete, touch_seen hlaid hquarantine]
    exact .same hlaid
  | _ => exact .same hlaid

lemma restoreStagedDelete_matches (hlaid : Laid (layout mkstemp) tree) {quarantine : Option ℕ}
    (hkey : KeyNamed key) (hname : ∀ name ∈ quarantine, name < 16 ^ 32)
    (hparent : point = .start → quarantine.isSome → IsDirectory tree (originalPlace key).dropLast)
    {path : Place} (hpath : quarantine.isSome → path = originalPlace key) :
    Matches mkstemp tree (restoreStagedDelete ⟨key, quarantine⟩ path tree point)
      (ObjectFiles.restoreStagedDelete ⟨key, quarantine⟩ (view (layout mkstemp) tree) point) := by
  cases quarantine with
  | none => cases point <;> exact .same hlaid
  | some name =>
    have horiginal := placed_original mkstemp hkey
    have hquarantine := placed_quarantine mkstemp (hname name rfl)
    obtain rfl := hpath rfl
    cases point with
    | start =>
      have hview := view_link hquarantine horiginal (hparent rfl rfl)
        (hlaid.directories _ _ horiginal)
      simp only [restoreStagedDelete, ObjectFiles.restoreStagedDelete]
      rw [← hview]
      rcases hlink : link tree (quarantinePlace name) (originalPlace key) with _ | tree'
      · rename_i error
        cases error with
        | missing => exact .same hlaid
        | taken => exact .same hlaid
      · obtain ⟨hlaid', hkept⟩ := hlaid.link horiginal hlink
        exact ⟨rfl, hlaid', hkept⟩
    | unlink =>
      simp only [restoreStagedDelete, ObjectFiles.restoreStagedDelete]
      rw [view_at hquarantine]
      rcases content tree (quarantinePlace name) with _ | object
      · exact .same hlaid
      · exact unlink_matches hlaid hquarantine _
    | _ => exact .same hlaid

lemma finalizeStagedDelete_matches (hlaid : Laid (layout mkstemp) tree) {deletion : StagedDeletion}
    (hname : ∀ name ∈ deletion.quarantine, name < 16 ^ 32) :
    Matches mkstemp tree (finalizeStagedDelete deletion tree point)
      (ObjectFiles.finalizeStagedDelete deletion (view (layout mkstemp) tree) point) := by
  rcases deletion with ⟨key, quarantine⟩
  cases point with
  | start =>
    cases quarantine with
    | none => exact .same hlaid
    | some name => exact unlink_matches hlaid (placed_quarantine mkstemp (hname name rfl)) _
  | _ => exact .same hlaid

def Prepared (tree : FileTree) (path : Place) (request : Request) (point : Point) : Prop :=
  ensures request point → IsDirectory tree (directoryOf path request)

def Unmade (tree : FileTree) (path : Place) (request : Request) (point : Point) : Prop :=
  (∃ key, request = .delete key) ∧ point = .flush ∧ ¬ IsDirectory tree path.dropLast

def Resolves (path : Place) (request : Request) : Prop := resolved request = .ok path

lemma operate_matches {request : Request} {path : Place} (hlaid : Laid (layout mkstemp) tree)
    (hroot : IsDirectory tree stagingRoot) (hnamed : RequestNamed request)
    (hpath : Resolves path request) (hprepared : Prepared tree path request point)
    (hmade : ¬ Unmade tree path request point) :
    Matches mkstemp tree (operate mkstemp path tree point request)
      (request.advance (view (layout mkstemp) tree) point) := by
  cases request with
  | createStagedUpload upload => exact createStagedUpload_matches hlaid hroot upload
  | putOriginal staged key =>
    obtain rfl := Except.ok.inj ((resolve_original hnamed).symm.trans hpath)
    exact putOriginal_matches hlaid hnamed (fun hpoint => hprepared (by rw [hpoint]; rfl))
  | discardStaged staged => exact discardStaged_matches hlaid staged
  | delete key =>
    obtain rfl := Except.ok.inj ((resolve_original hnamed).symm.trans hpath)
    exact delete_matches hlaid hnamed
      (fun hpoint => not_not.mp fun hnone => hmade ⟨⟨key, rfl⟩, hpoint, hnone⟩)
  | stageDelete key name =>
    obtain rfl := Except.ok.inj ((resolve_original hnamed.1).symm.trans hpath)
    exact stageDelete_matches hlaid hnamed.1 hnamed.2 (fun hpoint => hprepared (by rw [hpoint]; rfl))
  | restoreStagedDelete deletion =>
    rcases deletion with ⟨key, quarantine⟩
    have hsame : quarantine.isSome → path = originalPlace key := by
      intro hsome
      obtain ⟨name, rfl⟩ := Option.isSome_iff_exists.mp hsome
      exact Except.ok.inj (hpath.symm.trans (resolve_original hnamed.1))
    refine restoreStagedDelete_matches hlaid hnamed.1 hnamed.2 ?_ hsame
    intro hpoint hsome
    rw [← hsame hsome]
    exact hprepared (by rw [hpoint]; exact hsome)
  | finalizeStagedDelete deletion => exact finalizeStagedDelete_matches hlaid hnamed.2

end Operations

section Steps

variable {mkstemp : Mkstemp} {tree tree' : FileTree} {call : TreeCall} {request : Request}
  {path : Place}

lemma resolved_ok (hnamed : RequestNamed request) : ∃ path, Resolves path request := by
  cases request with
  | putOriginal staged key => exact ⟨_, resolve_original hnamed⟩
  | delete key => exact ⟨_, resolve_original hnamed⟩
  | stageDelete key name => exact ⟨_, resolve_original hnamed.1⟩
  | restoreStagedDelete deletion =>
    rcases deletion with ⟨key, _ | name⟩
    · exact ⟨[], rfl⟩
    · exact ⟨_, resolve_original hnamed.1⟩
  | _ => exact ⟨[], rfl⟩

def Above (mkstemp : Mkstemp) (path : Place) : Prop :=
  ∃ file, Named file ∧ path <+: placeOf mkstemp file ∧ path ≠ placeOf mkstemp file

lemma Above.upper {upper : Place} (h : Above mkstemp path) (hupper : upper <+: path) :
    Above mkstemp upper := by
  obtain ⟨file, hnamed, habove, hne⟩ := h
  refine ⟨file, hnamed, hupper.trans habove, ?_⟩
  rintro rfl
  exact hne (habove.eq_of_length (le_antisymm habove.length_le hupper.length_le))

lemma Above.between (h : Above mkstemp path) : (layout mkstemp).Between path := by
  obtain ⟨file, hnamed, habove, hne⟩ := h
  exact between_above (placed_named hnamed) habove hne

lemma Above.original {key : StorageKey} (hkey : KeyNamed key) :
    Above mkstemp (originalPlace key).dropLast := by
  refine ⟨.original key, hkey, List.dropLast_prefix _, ?_⟩
  intro h
  have hlength := congrArg List.length h
  rw [List.length_dropLast, placeOf, length_original] at hlength
  cases hlength

lemma Above.staging : Above mkstemp stagingRoot := by
  refine ⟨.staged 0, trivial, ⟨_, rfl⟩, ?_⟩
  intro h
  cases (List.cons.inj h).2

lemma Above.root : Above mkstemp [] := Above.staging.upper List.nil_prefix

lemma directory_above (hnamed : RequestNamed request) (hpath : Resolves path request) :
    Above mkstemp (directoryOf path request) := by
  cases request with
  | putOriginal staged key =>
    obtain rfl := Except.ok.inj ((resolve_original hnamed).symm.trans hpath)
    exact .original hnamed
  | stageDelete key name =>
    refine ⟨.quarantine name, hnamed.2, List.prefix_append _ _, ?_⟩
    intro h
    have hlength : deletionRoot.length = 3 := (congrArg List.length h).trans (length_quarantine name)
    cases hlength
  | restoreStagedDelete deletion =>
    rcases deletion with ⟨key, _ | name⟩
    · obtain rfl := Except.ok.inj hpath
      exact .root
    · obtain rfl := Except.ok.inj ((resolve_original hnamed.1).symm.trans hpath)
      exact .original hnamed.1
  | _ => exact .root

lemma publishes_directory {key : StorageKey} (hnamed : RequestNamed request)
    (hpath : Resolves path request) (h : Publishes key request) :
    ensures request .start ∧ directoryOf path request = (originalPlace key).dropLast := by
  cases request with
  | putOriginal staged other =>
    obtain rfl : other = key := h
    obtain rfl := Except.ok.inj ((resolve_original hnamed).symm.trans hpath)
    exact ⟨rfl, rfl⟩
  | restoreStagedDelete deletion =>
    rcases deletion with ⟨other, _ | name⟩
    · cases h.1
    · obtain rfl : other = key := h.2
      obtain rfl := Except.ok.inj ((resolve_original hnamed.1).symm.trans hpath)
      exact ⟨rfl, rfl⟩
  | _ => cases h

lemma dropLast_level {directory : Place} {made : ℕ} (h : made < directory.length) :
    (directory.take (made + 1)).dropLast = directory.take made := by
  rw [List.dropLast_eq_take, List.length_take, List.take_take]
  congr 1
  omega

def KeepsLevels (mkstemp : Mkstemp) (tree tree' : FileTree) : Prop :=
  ∀ path, Above mkstemp path → IsDirectory tree path → IsDirectory tree' path

structure CallGood (mkstemp : Mkstemp) (tree : FileTree) (call : TreeCall) : Prop where
  named : RequestNamed call.request
  made : ∀ path, Resolves path call.request →
    ∀ i ≤ call.made, IsDirectory tree ((directoryOf path call.request).take i)
  past : ∀ path, Resolves path call.request → ensures call.request .start → call.point ≠ .start →
    IsDirectory tree (directoryOf path call.request)

lemma CallGood.kept (h : CallGood mkstemp tree call) (hkept : KeepsLevels mkstemp tree tree') :
    CallGood mkstemp tree' call := by
  refine ⟨h.named, fun path hpath i hi => ?_, fun path hpath hensures hpoint => ?_⟩
  · exact hkept _ ((directory_above h.named hpath).upper (List.take_prefix _ _))
      (h.made path hpath i hi)
  · exact hkept _ (directory_above h.named hpath) (h.past path hpath hensures hpoint)

/-- A step of the call: one of the files it is seen as, one level of its directory, or a flush
that fails. -/
inductive Advanced (mkstemp : Mkstemp) (tree : FileTree) (call : TreeCall) :
    FileTree → TreeCall → Prop
  | operated {tree' call'}
      (hfiles : (view (layout mkstemp) tree', call'.seen) =
        ObjectFiles.advance call.seen (view (layout mkstemp) tree)) : Advanced mkstemp tree call tree' call'
  | level {tree' call'} (hview : view (layout mkstemp) tree' = view (layout mkstemp) tree)
      (hseen : call'.seen = call.seen) : Advanced mkstemp tree call tree' call'
  | unmade {key} (hrequest : call.request = .delete key) (hflush : call.point = .flush)
      (hnone : ¬ IsDirectory tree (originalPlace key).dropLast) :
      Advanced mkstemp tree call tree { call with point := .raised .fileNotFound }

lemma advance_moved (hlaid : Laid (layout mkstemp) tree) (hstaging : IsDirectory tree stagingRoot)
    (hgood : CallGood mkstemp tree call) :
    Laid (layout mkstemp) (call.advance mkstemp tree).1 ∧
      KeepsDirectories tree (call.advance mkstemp tree).1 ∧
      CallGood mkstemp (call.advance mkstemp tree).1 (call.advance mkstemp tree).2 ∧
      Advanced mkstemp tree call (call.advance mkstemp tree).1 (call.advance mkstemp tree).2 := by
  obtain ⟨path, hpath⟩ := resolved_ok hgood.named
  have hmade := hgood.made path hpath
  rw [TreeCall.advance, hpath]
  simp only []
  split
  · rename_i hlevel
    have hbetween : (layout mkstemp).Between ((directoryOf path call.request).take (call.made + 1)) :=
      ((directory_above hgood.named hpath).upper (List.take_prefix _ _)).between
    have hparent : IsDirectory tree
        ((directoryOf path call.request).take (call.made + 1)).dropLast := by
      rw [dropLast_level hlevel.2]
      exact hmade _ le_rfl
    obtain ⟨tree', hmkdir, hlaid', hkept, hdirectory⟩ := hlaid.mkdir hbetween hparent
    rw [hmkdir]
    refine ⟨hlaid', hkept, ⟨hgood.named, fun other hother i hi => ?_, fun other hother hensures hpoint =>
      hkept _ (hgood.past other hother hensures hpoint)⟩, .level (view_mkdir hmkdir) rfl⟩
    obtain rfl := Except.ok.inj (hother.symm.trans hpath)
    rcases Nat.le_succ_iff.mp hi with hi | rfl
    · exact hkept _ (hmade i hi)
    · exact hdirectory
  · rename_i hready
    have hprepared : Prepared tree path call.request call.point := by
      intro hensures
      have hall := hmade _ le_rfl
      rwa [List.take_of_length_le (not_lt.mp fun hlt => hready ⟨hensures, hlt⟩)] at hall
    have hpast : ∀ other, Resolves other call.request → ensures call.request .start →
        IsDirectory tree (directoryOf other call.request) := by
      intro other hother hensures
      by_cases hpoint : call.point = .start
      · obtain rfl := Except.ok.inj (hother.symm.trans hpath)
        exact hprepared (by rw [hpoint]; exact hensures)
      · exact hgood.past other hother hensures hpoint
    by_cases hunmade : Unmade tree path call.request call.point
    · obtain ⟨⟨key, hrequest⟩, hflush, hnone⟩ := hunmade
      have hnamed := hgood.named
      have hresolved := hpath
      rw [hrequest] at hnamed hresolved
      obtain rfl := Except.ok.inj ((resolve_original hnamed).symm.trans hresolved)
      have hfails : operate mkstemp (originalPlace key) tree call.point call.request =
          (tree, .raised .fileNotFound) := by
        rw [hrequest, hflush, operate, delete, if_neg hnone]
      rw [hfails]
      exact ⟨hlaid, fun _ h => h, ⟨hgood.named, hgood.made, fun other hother hensures _ =>
        hpast other hother hensures⟩, .unmade hrequest hflush hnone⟩
    · have hmatch := operate_matches hlaid hstaging hgood.named hpath hprepared hunmade
      refine ⟨hmatch.laid, hmatch.kept, ⟨hgood.named, fun other hother i hi => ?_,
        fun other hother hensures _ => hmatch.kept _ (hpast other hother hensures)⟩, .operated ?_⟩
      · exact hmatch.kept _ (hgood.made other hother i hi)
      · have hfiles := hmatch.files
        simp only [ObjectFiles.advance, TreeCall.seen, ← hfiles]

lemma flush_returns (call : FileCall) {disk : Disk} (hflush : call.point = .flush) :
    (ObjectFiles.advance call disk).2.point ≠ .raised .fileNotFound := by
  rw [ObjectFiles.advance, hflush]
  cases call.request with
  | restoreStagedDelete deletion => nofun
  | _ => nofun

end Steps

section Workspaces

variable {mkstemp : Mkstemp} {tree tree' : FileTree} {jobId claimToken : Uuid} {path : Place}

lemma ensure_levels {directory : Place} (hlaid : Laid (layout mkstemp) tree)
    (hroot : IsDirectory tree [])
    (hbetween : ∀ upper, upper <+: directory → (layout mkstemp).Between upper) {n : ℕ}
    (hn : n ≤ directory.length) : ∃ tree', (List.range n).foldlM
        (fun tree made => found (mkdir tree (directory.take (made + 1))) directoryTaken) tree =
          .ok tree' ∧
      Laid (layout mkstemp) tree' ∧ KeepsDirectories tree tree' ∧
      IsDirectory tree' (directory.take n) ∧
      view (layout mkstemp) tree' = view (layout mkstemp) tree := by
  induction n with
  | zero => exact ⟨tree, rfl, hlaid, fun _ h => h, hroot, rfl⟩
  | succ n ih =>
    obtain ⟨middle, hfold, hlaid', hkept, hdirectory, hview⟩ := ih (by omega)
    have hparent : IsDirectory middle (directory.take (n + 1)).dropLast := by
      rw [dropLast_level (by omega)]
      exact hdirectory
    obtain ⟨last, hmkdir, hlaid'', hkept', hmade⟩ :=
      hlaid'.mkdir (hbetween _ (List.take_prefix _ _)) hparent
    refine ⟨last, ?_, hlaid'', fun entry h => hkept' entry (hkept entry h), hmade, ?_⟩
    · rw [List.range_succ, List.foldlM_append, hfold]
      simp [found, hmkdir]
    · rw [view_mkdir hmkdir, hview]

lemma workspace_between {upper : Place} (h : upper <+: workspace jobId claimToken) :
    (layout mkstemp).Between upper := by
  constructor
  · intro file hfile
    obtain ⟨_, rfl⟩ := placed_some.mp hfile
    exact place_apart h
  · rintro ⟨_, _, _, _, rfl⟩
    have hlength := h.length_le
    simp only [workspace, workRoot, List.length_append, List.length_cons, List.length_nil] at hlength
    omega

lemma workDirectory_ok (hlaid : Laid (layout mkstemp) tree) (hroot : IsDirectory tree [])
    (jobId claimToken : Uuid) : ∃ tree', workDirectory jobId claimToken tree = .ok tree' ∧
      Laid (layout mkstemp) tree' ∧ KeepsDirectories tree tree' ∧
      IsDirectory tree' (workspace jobId claimToken) ∧
      view (layout mkstemp) tree' = view (layout mkstemp) tree := by
  obtain ⟨tree', hfold, hrest⟩ := ensure_levels hlaid hroot (fun _ => workspace_between) le_rfl
  rw [List.take_length] at hrest
  refine ⟨tree', ?_, hrest⟩
  rw [workDirectory, resolve_work]
  exact hfold

lemma deleteWorkspaces_ok (jobIds : List Uuid) (tree : FileTree) :
    ∃ tree', deleteWorkspaces jobIds tree = .ok tree' ∧ ∀ path, tree' path =
      if ∃ jobId ∈ jobIds, workRoot ++ [jobId.text] <+: path then none else tree path := by
  induction jobIds generalizing tree with
  | nil => exact ⟨tree, rfl, fun path => by simp⟩
  | cons jobId jobIds ih =>
    obtain ⟨tree', hrest, hpaths⟩ := ih (removeTree tree (workRoot ++ [jobId.text]))
    refine ⟨tree', ?_, fun path => ?_⟩
    · rw [deleteWorkspaces, List.foldlM_cons, resolve_workspace]
      exact hrest
    · rw [hpaths, removeTree]
      by_cases hjob : workRoot ++ [jobId.text] <+: path
      · simp [hjob]
      · simp [hjob]

lemma deleteWorkspaces_view {jobIds : List Uuid} (h : deleteWorkspaces jobIds tree = .ok tree') :
    view (layout mkstemp) tree' = view (layout mkstemp) tree := by
  obtain ⟨same, hsame, hpaths⟩ := deleteWorkspaces_ok jobIds tree
  obtain rfl := Except.ok.inj (hsame.symm.trans h)
  apply view_congr
  intro file path hfile
  obtain ⟨_, rfl⟩ := placed_some.mp hfile
  rw [content, hpaths, if_neg, content]
  rintro ⟨jobId, _, hjob⟩
  exact workspace_apart hjob

lemma makeLevel_kept (hlaid : Laid (layout mkstemp) tree) {upper : Place}
    (hupper : upper <+: workspace jobId claimToken) :
    Laid (layout mkstemp) (makeLevel tree upper) ∧ KeepsDirectories tree (makeLevel tree upper) ∧
      view (layout mkstemp) (makeLevel tree upper) = view (layout mkstemp) tree := by
  rw [makeLevel]
  cases hmkdir : mkdir tree upper with
  | none => exact ⟨hlaid, fun _ h => h, rfl⟩
  | some tree' =>
    obtain ⟨hlaid', hkept⟩ := hlaid.level (workspace_between hupper) hmkdir
    exact ⟨hlaid', hkept, view_mkdir hmkdir⟩

lemma update_kept (hlaid : Laid (layout mkstemp) tree) (path : Place)
    (node : Option (Node Object))
    (hfile : ∀ content, node = some (.file content) → InWorkspace path)
    (hoff : ∀ file, ¬ path <+: placeOf mkstemp file) :
    Laid (layout mkstemp) (Function.update tree path node) ∧
      KeepsLevels mkstemp tree (Function.update tree path node) ∧
      view (layout mkstemp) (Function.update tree path node) = view (layout mkstemp) tree := by
  have hplaces : ∀ file, (layout mkstemp).place file ≠ some path := by
    intro file hplace
    obtain ⟨_, rfl⟩ := placed_some.mp hplace
    exact hoff file List.prefix_rfl
  refine ⟨hlaid.update (fun content h => .inr (hfile content h)) (fun _ => hplaces), ?_,
    view_update_off hplaces node⟩
  rintro entry ⟨file, _, habove, _⟩ hdirectory
  rw [IsDirectory, Function.update_apply, if_neg]
  · exact hdirectory
  · rintro rfl
    exact hoff file habove

end Workspaces

section Runs

variable {mkstemp : Mkstemp} {store store' : TreeStore} {act : TreeAct}
  {es : List (Event TreeStore TreeAct)}

structure StoreGood (mkstemp : Mkstemp) (store : TreeStore) : Prop where
  laid : Laid (layout mkstemp) store.shared
  root : IsDirectory store.shared []
  staging : IsDirectory store.shared stagingRoot
  calls : ∀ call ∈ store.calls, CallGood mkstemp store.shared call

lemma StoreGood.moved {tree : FileTree} (h : StoreGood mkstemp store)
    (hlaid : Laid (layout mkstemp) tree)
    (hkept : KeepsLevels mkstemp store.shared tree) : StoreGood mkstemp ⟨tree, store.calls⟩ :=
  ⟨hlaid, hkept _ .root h.root, hkept _ .staging h.staging,
    fun call hcall => (h.calls call hcall).kept hkept⟩

lemma storeGood_step (h : StoreGood mkstemp store) (hstep : TreeStep mkstemp store act store') :
    StoreGood mkstemp store' := by
  obtain ⟨hallowed, rfl⟩ := hstep
  cases act with
  | begin request =>
    refine ⟨h.laid, h.root, h.staging, forall_snoc h.calls ⟨hallowed.2, fun path _ i hi => ?_, ?_⟩⟩
    · rw [Nat.le_zero.mp hi, List.take_zero]
      exact h.root
    · exact fun _ _ _ hstart => absurd rfl hstart
  | step i =>
    have hstep : PoolStep TreeCall.ready (TreeCall.advance mkstemp) store i _ := ⟨hallowed, rfl⟩
    obtain ⟨call, hcall, _, hmoved⟩ := hstep.cases
    obtain ⟨hlaid, hkept, hgood, _⟩ :=
      advance_moved h.laid h.staging (h.calls call (List.mem_of_getElem? hcall))
    have hnext := h.moved hlaid (fun path _ => hkept path)
    rw [perform, hmoved]
    exact ⟨hnext.laid, hnext.root, hnext.staging, forall_set hnext.calls hgood⟩
  | makeLevel jobId claimToken level =>
    obtain ⟨hlaid, hkept, _⟩ := makeLevel_kept h.laid (List.take_prefix level (workspace jobId claimToken))
    exact h.moved hlaid (fun path _ => hkept path)
  | scratch entry node =>
    obtain ⟨hlaid, hkept, _⟩ := update_kept h.laid _ node
      (fun _ _ => entry.inWorkspace) (fun _ => workspace_apart)
    exact h.moved hlaid hkept
  | remove jobId rest =>
    obtain ⟨hlaid, hkept, _⟩ := update_kept h.laid (workRoot ++ jobId.text :: rest)
      none (fun _ h => absurd h (Option.some_ne_none _).symm) (fun _ => workspace_apart)
    exact h.moved hlaid hkept

lemma fresh_entry (path : Place) : TreeStore.fresh.shared path = none ∨
    (path.length ≤ 1 ∧ TreeStore.fresh.shared path = some .directory) := by
  by_cases h : path ∈ [[], stagingRoot, recordingsRoot, workRoot]
  · have hshort : ∀ root ∈ [[], stagingRoot, recordingsRoot, workRoot], root.length ≤ 1 := by decide
    exact .inr ⟨hshort path h, if_pos h⟩
  · exact .inl (if_neg h)

lemma storeGood_fresh : StoreGood mkstemp TreeStore.fresh := by
  refine ⟨⟨fun path content hpath => ?_, fun file path hfile hdirectory => ?_⟩, rfl, rfl, nofun⟩
  · rcases fresh_entry path with h | ⟨_, h⟩
    · rw [h] at hpath
      cases hpath
    · rw [h] at hpath
      cases hpath
  · obtain ⟨_, rfl⟩ := placed_some.mp hfile
    rcases fresh_entry (placeOf mkstemp file) with h | ⟨hshort, _⟩
    · rw [IsDirectory, h] at hdirectory
      cases hdirectory
    · exact absurd (two_le_place mkstemp file) (by omega)

lemma seen_same {tree : FileTree}
    (hview : view (layout mkstemp) tree = view (layout mkstemp) store.shared) :
    seen mkstemp ⟨tree, store.calls⟩ = seen mkstemp store := by
  rw [seen, hview, seen]

lemma tree_seen (h : StoreGood mkstemp store) (hstep : TreeStep mkstemp store act store') :
    Seen StoreStep (seen mkstemp) seenAs ⟨store, act, store'⟩ := by
  obtain ⟨hallowed, rfl⟩ := hstep
  cases act with
  | begin request =>
    refine .inl ⟨_, rfl, hallowed.1, ?_⟩
    simp [seen, perform, Store.perform, TreeCall.seen]
  | step i =>
    have hstep : PoolStep TreeCall.ready (TreeCall.advance mkstemp) store i _ := ⟨hallowed, rfl⟩
    obtain ⟨call, hcall, hready, hmoved⟩ := hstep.cases
    have hcalled : (seen mkstemp store).calls[i]? = some call.seen := by
      rw [seen, List.getElem?_map, hcall, Option.map_some]
    obtain ⟨_, _, _, hadvanced⟩ :=
      advance_moved h.laid h.staging (h.calls call (List.mem_of_getElem? hcall))
    rw [perform, hmoved]
    generalize (call.advance mkstemp store.shared).1 = tree at hadvanced ⊢
    generalize (call.advance mkstemp store.shared).2 = after at hadvanced ⊢
    cases hadvanced with
    | operated hfiles =>
      have hshared := congrArg Prod.fst hfiles
      have hnext := congrArg Prod.snd hfiles
      simp only [] at hshared hnext
      have hlabel : ¬ FlushFails i ⟨store, .step i, ⟨tree, store.calls.set i after⟩⟩ := by
        rintro ⟨hflush, hraised⟩
        simp only [hcall, set_self hcall, Option.map_some, Option.some.injEq] at hflush hraised
        exact flush_returns call.seen hflush (by rw [← hnext]; exact hraised)
      refine .inl ⟨.step i, congrArg some (if_neg hlabel), ⟨call.seen, hcalled, hready⟩, ?_⟩
      rw [Store.perform, Pool.perform, hcalled]
      simp only [seen, List.map_set, hshared, hnext]
    | level hview hseen =>
      refine .inr ?_
      rw [seen, seen, hview, map_set_same hcall hseen]
    | unmade hrequest hflush hnone =>
      have hlabel : FlushFails i ⟨store, .step i, ⟨store.shared, store.calls.set i
          { call with point := .raised .fileNotFound }⟩⟩ := by
        refine ⟨?_, ?_⟩
        · simp only [hcall, Option.map_some, hflush]
        · simp only [set_self hcall, Option.map_some]
      refine .inl ⟨.missing i, congrArg some (if_pos hlabel), ⟨call.seen, hcalled, hflush⟩, ?_⟩
      rw [Store.perform, Pool.perform, hcalled]
      simp only [seen, List.map_set, failFlush, TreeCall.seen]
  | makeLevel jobId claimToken level =>
    obtain ⟨_, _, hview⟩ := makeLevel_kept h.laid (List.take_prefix level (workspace jobId claimToken))
    exact .inr (seen_same hview)
  | scratch entry node =>
    obtain ⟨_, _, hview⟩ := update_kept h.laid _ node
      (fun _ _ => entry.inWorkspace) (fun _ => workspace_apart)
    exact .inr (seen_same hview)
  | remove jobId rest =>
    obtain ⟨_, _, hview⟩ := update_kept h.laid (workRoot ++ jobId.text :: rest)
      none (fun _ h => absurd h (Option.some_ne_none _).symm) (fun _ => workspace_apart)
    exact .inr (seen_same hview)

lemma missing_unmade (h : StoreGood mkstemp store) (hstep : TreeStep mkstemp store act store') {i : ℕ}
    (hmissing : seenAs ⟨store, act, store'⟩ = some (.missing i)) : ∃ call key,
      store.calls[i]? = some call ∧ call.request = .delete key ∧
      ∀ other ∈ store.calls, Publishes key other.request → other.point = .start := by
  have hact : act = .step i ∧ FlushFails i ⟨store, act, store'⟩ := by
    cases act with
    | step k =>
      rw [seenAs] at hmissing
      simp only [Option.some.injEq] at hmissing
      split at hmissing
      · rename_i hfails
        cases hmissing
        exact ⟨rfl, hfails⟩
      · cases hmissing
    | _ => cases hmissing
  obtain ⟨rfl, hflush, hraised⟩ := hact
  obtain ⟨hallowed, rfl⟩ := hstep
  have hstep : PoolStep TreeCall.ready (TreeCall.advance mkstemp) store i _ := ⟨hallowed, rfl⟩
  obtain ⟨call, hcall, _, hmoved⟩ := hstep.cases
  obtain ⟨_, _, _, hadvanced⟩ :=
    advance_moved h.laid h.staging (h.calls call (List.mem_of_getElem? hcall))
  rw [perform, hmoved] at hraised
  simp only [hcall, set_self hcall, Option.map_some, Option.some.injEq] at hflush hraised
  generalize (call.advance mkstemp store.shared).1 = tree at hadvanced
  generalize (call.advance mkstemp store.shared).2 = after at hadvanced hraised
  cases hadvanced with
  | operated hfiles =>
    have hnext := congrArg Prod.snd hfiles
    simp only [] at hnext
    exact absurd (by rw [← hnext]; exact hraised) (flush_returns call.seen hflush)
  | level _ hseen =>
    have hsame : after.point = call.point := congrArg FileCall.point hseen
    rw [hsame, hflush] at hraised
    cases hraised
  | @unmade key hrequest _ hnone =>
    refine ⟨call, key, hcall, hrequest, fun other hother hpublishes => ?_⟩
    by_contra hpast
    have hgood := h.calls other hother
    obtain ⟨path, hpath⟩ := resolved_ok hgood.named
    obtain ⟨hensures, hdirectory⟩ := publishes_directory hgood.named hpath hpublishes
    rw [← hdirectory] at hnone
    exact hnone (hgood.past path hpath hensures hpast)

lemma seen_fresh (mkstemp : Mkstemp) : seen mkstemp TreeStore.fresh = Store.empty := by
  have hview : view (layout mkstemp) TreeStore.fresh.shared = fun _ => none := by
    funext file
    cases hfile : (layout mkstemp).place file with
    | none => rw [view, hfile, Option.bind_none]
    | some path =>
      rw [view_at hfile, content]
      rcases fresh_entry path with h | ⟨_, h⟩
      · rw [h, Option.bind_none]
      · rw [h]
        rfl
  rw [seen, hview]
  rfl

end Runs

def numbered : Mkstemp := ⟨Foundations.Numerals.padded 8, Foundations.Numerals.padded_injective 8⟩

def keptKey : StorageKey := ⟨19722, 7, "wav".toList⟩

def keptUpload : StagedUpload := ⟨0, ⟨11, "aa".toList⟩⟩

def workingJob : Uuid := ⟨7 % 16 ^ 32, uuid_lt 7⟩

def scratchFile : ScratchEntry := ⟨workingJob, workingJob, "normalized.wav".toList, []⟩

/-- A key is deleted before its upload is published, while a worker makes a workspace, writes there
and has it removed. -/
def publishedActs : List TreeAct :=
  [.begin (.createStagedUpload keptUpload), .step 0, .begin (.putOriginal keptUpload keptKey),
    .makeLevel workingJob workingJob 2, .step 1, .begin (.delete keptKey), .step 2, .step 2, .step 1,
    .makeLevel workingJob workingJob 3, .step 1, .step 1, .step 1,
    .scratch scratchFile (some (.file ⟨3, []⟩)), .step 1, .step 1,
    .remove workingJob scratchFile.below, .remove workingJob [workingJob.text], .remove workingJob []]

def publishedStore : TreeStore := publishedActs.foldl (perform numbered) TreeStore.fresh

end AudioServer.Services.StorageTree
