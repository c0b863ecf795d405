import AudioServer.Foundations.Files
import Mathlib.Data.List.Infix

/-! A tree of directories and files by the path of each entry, and the flat directory of the files
a layout gives places: no place lies below another one. -/

namespace AudioServer.Foundations.Trees

open AudioServer.Foundations.Files (Directory LinkError)

inductive Node (ω : Type)
  | directory
  | file (content : ω)
deriving DecidableEq

def Node.content {ω : Type} : Node ω → Option ω
  | .directory => none
  | .file content => some content

def Node.isDirectory {ω : Type} (node : Node ω) : Bool := node.content.isNone

abbrev Tree (ν ω : Type) := List ν → Option (Node ω)

variable {ν ω π : Type}

def content (tree : Tree ν ω) (path : List ν) : Option ω := (tree path).bind Node.content

def IsDirectory (tree : Tree ν ω) (path : List ν) : Prop := tree path = some .directory

lemma any_directory {tree : Tree ν ω} {path : List ν} :
    (tree path).any Node.isDirectory = true ↔ IsDirectory tree path := by
  rw [IsDirectory]
  rcases tree path with _ | _ | content
  · simp
  · simp [Node.isDirectory, Node.content]
  · simp [Node.isDirectory, Node.content]

instance (tree : Tree ν ω) (path : List ν) : Decidable (IsDirectory tree path) :=
  decidable_of_iff _ any_directory

section Calls

variable [DecidableEq ν]

/-- `mkdir` of one level, a directory that exists being fine. -/
def mkdir (tree : Tree ν ω) (path : List ν) : Option (Tree ν ω) :=
  match tree path with
  | some .directory => some tree
  | some (.file _) => none
  | none =>
    if IsDirectory tree path.dropLast then some (Function.update tree path (some .directory))
    else none

def link (tree : Tree ν ω) (source target : List ν) : Except LinkError (Tree ν ω) :=
  match content tree source with
  | none => .error .missing
  | some content =>
    if (tree target).isSome then .error .taken
    else if IsDirectory tree target.dropLast then
      .ok (Function.update tree target (some (.file content)))
    else .error .missing

def rename (tree : Tree ν ω) (source target : List ν) : Option (Tree ν ω) :=
  match content tree source with
  | none => none
  | some content =>
    if IsDirectory tree target.dropLast ∧ ¬ IsDirectory tree target then
      some (Function.update (Function.update tree source none) target (some (.file content)))
    else none

def unlink (tree : Tree ν ω) (path : List ν) : Tree ν ω :=
  match tree path with
  | some (.file _) => Function.update tree path none
  | _ => tree

def create (tree : Tree ν ω) (path : List ν) (content : ω) : Option (Tree ν ω) :=
  if IsDirectory tree path.dropLast then some (Function.update tree path (some (.file content)))
  else none

def removeTree (tree : Tree ν ω) (path : List ν) : Tree ν ω :=
  fun entry => if path <+: entry then none else tree entry

end Calls

/-- The paths of `room` are not the layout's: whatever is there is not seen. -/
structure Layout (π ν : Type) where
  place : π → Option (List ν)
  room : List ν → Prop
  apart : ∀ {p q : π} {a b : List ν}, place p = some a → place q = some b → a <+: b → p = q
  clear : ∀ {p : π} {a b : List ν}, place p = some a → room b → ¬ b <+: a

section View

variable (layout : Layout π ν) (tree : Tree ν ω)

def view : Directory π ω := fun p => (layout.place p).bind (content tree)

variable {layout tree} {tree' : Tree ν ω} {path source target : List ν} {p q : π} {c : ω}

lemma view_at (h : layout.place p = some path) : view layout tree p = content tree path := by
  rw [view, h, Option.bind_some]

lemma view_congr
    (h : ∀ p path, layout.place p = some path → content tree' path = content tree path) :
    view layout tree' = view layout tree := by
  funext p
  cases hp : layout.place p with
  | none => rw [view, view, hp, Option.bind_none, Option.bind_none]
  | some path => rw [view_at hp, view_at hp, h p path hp]

variable [DecidableEq ν] [DecidableEq π]

lemma content_update (path entry : List ν) (node : Option (Node ω)) :
    content (Function.update tree path node) entry =
      if entry = path then node.bind Node.content else content tree entry := by
  rw [content, Function.update_apply]
  split <;> rfl

lemma view_update (h : layout.place p = some path) (node : Option (Node ω)) :
    view layout (Function.update tree path node) =
      Function.update (view layout tree) p (node.bind Node.content) := by
  funext q
  rw [Function.update_apply]
  cases hq : layout.place q with
  | none =>
    rw [view, view, hq, Option.bind_none, Option.bind_none, if_neg]
    rintro rfl
    rw [h] at hq
    cases hq
  | some entry =>
    rw [view_at hq, view_at hq, content_update]
    by_cases he : entry = path
    · subst he
      rw [if_pos rfl, if_pos (layout.apart hq h List.prefix_rfl)]
    · rw [if_neg he, if_neg]
      rintro rfl
      rw [h] at hq
      exact he (Option.some.inj hq).symm

omit [DecidableEq π] in
lemma view_update_off (h : ∀ p, layout.place p ≠ some path) (node : Option (Node ω)) :
    view layout (Function.update tree path node) = view layout tree := by
  apply view_congr
  intro p entry hp
  rw [content_update, if_neg]
  rintro rfl
  exact h p hp

omit [DecidableEq π] in
lemma view_mkdir (h : mkdir tree path = some tree') : view layout tree' = view layout tree := by
  unfold mkdir at h
  split at h
  · cases h
    rfl
  · cases h
  · rename_i habsent
    split at h
    · cases h
      apply view_congr
      intro p entry _
      rw [content_update]
      split
      · rename_i he
        rw [he, content, habsent]
        rfl
      · rfl
    · cases h

lemma view_link (hp : layout.place p = some source) (hq : layout.place q = some target)
    (hparent : IsDirectory tree target.dropLast) (hfile : ¬ IsDirectory tree target) :
    (link tree source target).map (view layout) = Files.link (view layout tree) p q := by
  rw [link, Files.link, view_at hp, view_at hq]
  cases hs : content tree source with
  | none => rfl
  | some c =>
    cases ht : tree target with
    | none => simp [content, ht, hparent, Except.map, view_update hq, Node.content]
    | some node =>
      cases node with
      | directory => exact absurd ht hfile
      | file other => simp [content, ht, Except.map, Node.content]

lemma view_rename (hp : layout.place p = some source) (hq : layout.place q = some target)
    (hparent : IsDirectory tree target.dropLast) (hfile : ¬ IsDirectory tree target) :
    (rename tree source target).map (view layout) = Files.rename (view layout tree) p q := by
  rw [rename, Files.rename, view_at hp]
  cases hs : content tree source with
  | none => rfl
  | some c => simp [hparent, hfile, view_update hp, view_update hq, Node.content]

lemma view_unlink (hp : layout.place p = some path) :
    view layout (unlink tree path) = Files.unlink (view layout tree) p := by
  rw [unlink, Files.unlink]
  split
  · exact view_update hp none
  · rename_i hno
    symm
    apply Function.update_eq_self_iff.mpr
    rw [view_at hp, content]
    rcases htree : tree path with _ | _ | c
    · rfl
    · rfl
    · exact absurd htree (hno c)

lemma view_create (hp : layout.place p = some path) (hparent : IsDirectory tree path.dropLast) :
    (create tree path c).map (view layout) = some (Files.write (view layout tree) p c) := by
  rw [create, if_pos hparent, Option.map_some, view_update hp]
  rfl

end View

section Laid

structure Laid (layout : Layout π ν) (tree : Tree ν ω) : Prop where
  files : ∀ path content, tree path = some (.file content) →
    (∃ p, layout.place p = some path) ∨ layout.room path
  directories : ∀ p path, layout.place p = some path → ¬ IsDirectory tree path

def Layout.Between (layout : Layout π ν) (path : List ν) : Prop :=
  (∀ p, layout.place p ≠ some path) ∧ ¬ layout.room path

def KeepsDirectories (tree tree' : Tree ν ω) : Prop :=
  ∀ path, IsDirectory tree path → IsDirectory tree' path

variable {layout : Layout π ν} {tree tree' : Tree ν ω} {path source target : List ν} {p q : π}
  {c : ω}

lemma between_above (hplace : layout.place p = some target) (habove : path <+: target)
    (hne : path ≠ target) : layout.Between path := by
  refine ⟨fun q hq => hne ?_, fun hroom => layout.clear hplace hroom habove⟩
  have hsame := layout.apart hq hplace habove
  subst hsame
  exact Option.some.inj (hq.symm.trans hplace)

variable [DecidableEq ν]

lemma Laid.update {node : Option (Node ω)} (h : Laid layout tree)
    (hfile : ∀ content, node = some (.file content) →
      (∃ p, layout.place p = some path) ∨ layout.room path)
    (hdirectory : node = some .directory → ∀ p, layout.place p ≠ some path) :
    Laid layout (Function.update tree path node) := by
  constructor
  · intro entry content hentry
    rw [Function.update_apply] at hentry
    split at hentry
    · rename_i he
      rw [he]
      exact hfile content hentry
    · exact h.files entry content hentry
  · intro p entry hp hentry
    rw [IsDirectory, Function.update_apply] at hentry
    split at hentry
    · rename_i he
      rw [he] at hp
      exact hdirectory hentry p hp
    · exact h.directories p entry hp hentry

lemma keeps_update {node : Option (Node ω)} (h : ¬ IsDirectory tree path) :
    KeepsDirectories tree (Function.update tree path node) := by
  intro entry hentry
  rw [IsDirectory, Function.update_apply, if_neg]
  · exact hentry
  · rintro rfl
    exact h hentry

lemma Laid.mkdir (h : Laid layout tree) (hbetween : layout.Between path)
    (hparent : IsDirectory tree path.dropLast) : ∃ tree', mkdir tree path = some tree' ∧
      Laid layout tree' ∧ KeepsDirectories tree tree' ∧ IsDirectory tree' path := by
  rw [Trees.mkdir]
  rcases hpath : tree path with _ | _ | content
  · refine ⟨_, if_pos hparent, ?_, ?_, ?_⟩
    · exact h.update nofun (fun _ => hbetween.1)
    · exact keeps_update (by rw [IsDirectory, hpath]; nofun)
    · exact Function.update_self ..
  · exact ⟨tree, rfl, h, fun _ hentry => hentry, hpath⟩
  · rcases h.files path content hpath with ⟨p, hp⟩ | hroom
    · exact absurd hp (hbetween.1 p)
    · exact absurd hroom hbetween.2

lemma Laid.level (h : Laid layout tree) (hbetween : layout.Between path)
    (hmkdir : Trees.mkdir tree path = some tree') :
    Laid layout tree' ∧ KeepsDirectories tree tree' := by
  rw [Trees.mkdir] at hmkdir
  split at hmkdir
  · cases hmkdir
    exact ⟨h, fun _ hentry => hentry⟩
  · cases hmkdir
  · rename_i hnone
    split at hmkdir
    · cases hmkdir
      exact ⟨h.update nofun (fun _ => hbetween.1), keeps_update (by rw [IsDirectory, hnone]; nofun)⟩
    · cases hmkdir

lemma Laid.link (h : Laid layout tree) (hq : layout.place q = some target)
    (hlink : link tree source target = .ok tree') :
    Laid layout tree' ∧ KeepsDirectories tree tree' := by
  rw [Trees.link] at hlink
  split at hlink
  · cases hlink
  · split at hlink
    · cases hlink
    · split at hlink
      · cases hlink
        exact ⟨h.update (fun _ _ => .inl ⟨q, hq⟩) nofun, keeps_update (h.directories q target hq)⟩
      · cases hlink

lemma Laid.rename (h : Laid layout tree) (hp : layout.place p = some source)
    (hq : layout.place q = some target) (hrename : rename tree source target = some tree') :
    Laid layout tree' ∧ KeepsDirectories tree tree' := by
  rw [Trees.rename] at hrename
  split at hrename
  · cases hrename
  · split at hrename
    · cases hrename
      have hremoved : Laid layout (Function.update tree source none) := h.update nofun nofun
      refine ⟨hremoved.update (fun _ _ => .inl ⟨q, hq⟩) nofun, fun entry hentry => ?_⟩
      exact keeps_update (hremoved.directories q target hq) entry
        (keeps_update (h.directories p source hp) entry hentry)
    · cases hrename

lemma Laid.unlink (h : Laid layout tree) (hp : layout.place p = some path) :
    Laid layout (unlink tree path) ∧ KeepsDirectories tree (unlink tree path) := by
  rw [Trees.unlink]
  split
  · exact ⟨h.update nofun nofun, keeps_update (h.directories p path hp)⟩
  · exact ⟨h, fun _ hentry => hentry⟩

lemma Laid.create (h : Laid layout tree) (hp : layout.place p = some path)
    (hcreate : create tree path c = some tree') :
    Laid layout tree' ∧ KeepsDirectories tree tree' := by
  rw [Trees.create] at hcreate
  split at hcreate
  · cases hcreate
    exact ⟨h.update (fun _ _ => .inl ⟨p, hp⟩) nofun, keeps_update (h.directories p path hp)⟩
  · cases hcreate

end Laid

end AudioServer.Foundations.Trees
