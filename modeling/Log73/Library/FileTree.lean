import Mathlib.Data.List.Basic

/-!
Trees of files, directories and symbolic links. A path is resolved step by step: links are
followed, up to a bound on their number, and what results is the place itself, on the way to which
there is no link.
-/

/-- A step of a path; the root is one that a path can start with. -/
inductive PathStep (ν : Type*) where
  | root
  | current
  | parent
  | name (n : ν)
  deriving DecidableEq

inductive FileTree (ν β : Type*) where
  | file (content : β)
  | directory (entries : List (ν × FileTree ν β))
  | link (target : List (PathStep ν))
  | other

namespace FileTree

variable {ν β : Type*} [DecidableEq ν]

def childNamed (entries : List (ν × FileTree ν β)) (n : ν) : Option (FileTree ν β) :=
  (entries.find? (·.1 = n)).map Prod.snd

/-- What is at a place, which is reached through directories only. -/
def lookup : FileTree ν β → List ν → Option (FileTree ν β)
  | node, [] => some node
  | .directory entries, n :: ns => (childNamed entries n).bind fun child => lookup child ns
  | _, _ :: _ => none

/-- The steps of a path up to its first link, which is followed. -/
def resolveWith (tree : FileTree ν β) (links : Nat)
    (follow : List ν → List (PathStep ν) → Option (Nat × List ν)) :
    List ν → List (PathStep ν) → Option (Nat × List ν)
  | place, [] => some (links, place)
  | place, step :: steps =>
      match tree.lookup place with
      | some (.directory entries) =>
          match step with
          | .root => resolveWith tree links follow [] steps
          | .current => resolveWith tree links follow place steps
          | .parent => resolveWith tree links follow place.dropLast steps
          | .name n =>
              match childNamed entries n with
              | none => none
              | some (.link target) => follow place (target ++ steps)
              | some _ => resolveWith tree links follow (place ++ [n]) steps
      | _ => none

/-- The place that a path leads to from another place, and how many links may still be followed. -/
def resolve (tree : FileTree ν β) : Nat → List ν → List (PathStep ν) → Option (Nat × List ν)
  | 0 => resolveWith tree 0 fun _ _ => none
  | links + 1 => resolveWith tree (links + 1) (resolve tree links)

omit [DecidableEq ν] in
/-- What holds of a directory when it holds of its entries holds of a tree. -/
theorem induct {P : FileTree ν β → Prop} (hfile : ∀ content, P (.file content))
    (hdirectory : ∀ entries : List (ν × FileTree ν β), (∀ entry ∈ entries, P entry.2) →
      P (.directory entries))
    (hlink : ∀ target, P (.link target)) (hother : P .other) (tree : FileTree ν β) : P tree := by
  induction hsize : sizeOf tree using Nat.strongRecOn generalizing tree with
  | ind n ih =>
      cases tree with
      | file content => exact hfile content
      | link target => exact hlink target
      | other => exact hother
      | directory entries =>
          refine hdirectory entries fun entry hmem => ih (sizeOf entry.2) ?_ entry.2 rfl
          have hentry := List.sizeOf_lt_of_mem hmem
          obtain ⟨n, node⟩ := entry
          rw [← hsize]
          simp only [Prod.mk.sizeOf_spec, directory.sizeOf_spec] at hentry ⊢
          omega

theorem mem_of_childNamed {entries : List (ν × FileTree ν β)} {n : ν} {node : FileTree ν β}
    (h : childNamed entries n = some node) : (n, node) ∈ entries := by
  obtain ⟨entry, hentry, rfl⟩ := Option.map_eq_some_iff.mp h
  have hname : entry.1 = n := by simpa using List.find?_some hentry
  rw [← hname]
  exact List.mem_of_find?_eq_some hentry

section Lookup

variable {tree node : FileTree ν β} {place names : List ν}

theorem lookup_append (tree : FileTree ν β) (place names : List ν) :
    tree.lookup (place ++ names) = (tree.lookup place).bind fun node => node.lookup names := by
  induction place generalizing tree with
  | nil => rfl
  | cons n place ih =>
      cases tree with
      | directory entries =>
          rw [List.cons_append, lookup, lookup, Option.bind_assoc]
          exact congrArg _ (funext ih)
      | file _ | link _ | other => rfl

/-- What is behind a place is in a directory at it. -/
theorem exists_of_lookup_cons {n : ν} (h : tree.lookup (place ++ n :: names) = some node) :
    ∃ entries child, tree.lookup place = some (.directory entries) ∧
      childNamed entries n = some child ∧ child.lookup names = some node := by
  rw [lookup_append, Option.bind_eq_some_iff] at h
  obtain ⟨found, hplace, hnode⟩ := h
  cases found with
  | directory entries =>
      obtain ⟨child, hchild, hnode⟩ := Option.bind_eq_some_iff.mp hnode
      exact ⟨entries, child, hplace, hchild, hnode⟩
  | file _ | link _ | other => cases hnode

theorem lookup_child {entries : List (ν × FileTree ν β)} {child : FileTree ν β} {n : ν}
    (hplace : tree.lookup place = some (.directory entries))
    (hchild : childNamed entries n = some child) : tree.lookup (place ++ [n]) = some child := by
  rw [lookup_append, hplace, Option.bind_some, lookup, hchild, Option.bind_some, lookup]

end Lookup

/-! ### Resolution -/

section Resolve

variable {tree : FileTree ν β} {links : Nat}
  {follow : List ν → List (PathStep ν) → Option (Nat × List ν)}

theorem resolveWith_append {next : Nat × List ν → Option (Nat × List ν)}
    {steps : List (PathStep ν)}
    (hend : ∀ place, next (links, place) = resolveWith tree links follow place steps)
    (hfollow : ∀ place front, follow place (front ++ steps) = (follow place front).bind next)
    (place : List ν) (front : List (PathStep ν)) :
    resolveWith tree links follow place (front ++ steps) =
      (resolveWith tree links follow place front).bind next := by
  induction front generalizing place with
  | nil => exact (hend place).symm
  | cons step front ih =>
      rw [List.cons_append, resolveWith, resolveWith]
      cases tree.lookup place with
      | none => rfl
      | some node =>
          cases node with
          | file _ | link _ | other => rfl
          | directory entries =>
              cases step with
              | root => exact ih []
              | current => exact ih place
              | parent => exact ih place.dropLast
              | name n =>
                  dsimp only
                  cases childNamed entries n with
                  | none => rfl
                  | some child =>
                      cases child with
                      | link target =>
                          dsimp only
                          rw [← List.append_assoc, hfollow]
                      | file _ | directory _ | other => exact ih (place ++ [n])

/-- The links that the front of a path passes are no longer there for its rest. -/
theorem resolve_append (links : Nat) (place : List ν) (front steps : List (PathStep ν)) :
    tree.resolve links place (front ++ steps) =
      (tree.resolve links place front).bind fun state => tree.resolve state.1 state.2 steps := by
  induction links generalizing place front with
  | zero => exact resolveWith_append (fun _ => rfl) (fun _ _ => rfl) place front
  | succ links ih => exact resolveWith_append (fun _ => rfl) ih place front

theorem exists_resolve_eq (tree : FileTree ν β) (links : Nat) :
    ∃ follow, tree.resolve links = resolveWith tree links follow := by
  cases links with
  | zero => exact ⟨_, rfl⟩
  | succ links => exact ⟨_, rfl⟩

theorem resolve_name {place : List ν} {entries : List (ν × FileTree ν β)} {n : ν}
    {child : FileTree ν β} (hplace : tree.lookup place = some (.directory entries))
    (hchild : childNamed entries n = some child) (hlink : ∀ target, child ≠ .link target)
    (steps : List (PathStep ν)) :
    tree.resolve links place (.name n :: steps) = tree.resolve links (place ++ [n]) steps := by
  obtain ⟨follow, hfollow⟩ := exists_resolve_eq tree links
  rw [hfollow, resolveWith, hplace]
  dsimp only
  rw [hchild]
  cases child with
  | link target => exact absurd rfl (hlink target)
  | file _ | directory _ | other => rfl

/-- A way without links leads to where it says. -/
theorem resolve_names {place names : List ν} {node : FileTree ν β}
    (h : tree.lookup (place ++ names) = some node) (hlink : ∀ target, node ≠ .link target) :
    tree.resolve links place (names.map .name) = some (links, place ++ names) := by
  induction names generalizing place with
  | nil =>
      obtain ⟨follow, hfollow⟩ := exists_resolve_eq tree links
      rw [hfollow, List.append_nil]
      rfl
  | cons n names ih =>
      obtain ⟨entries, child, hplace, hchild, hnode⟩ := exists_of_lookup_cons h
      have hnot : ∀ target, child ≠ .link target := by
        rintro target rfl
        cases names with
        | nil => exact hlink target (Option.some.inj hnode).symm
        | cons _ _ => cases hnode
      have hsplit : place ++ n :: names = place ++ [n] ++ names := List.append_cons place n names
      rw [List.map_cons, resolve_name hplace hchild hnot, hsplit, ih (hsplit ▸ h)]

/-- A path of names that passes no link leads to where it says, if anywhere. -/
theorem place_of_resolve {place names : List ν} {state : Nat × List ν}
    (hfree : ∀ front, front <+: names →
      ∀ target, tree.lookup (place ++ front) ≠ some (.link target))
    (h : tree.resolve links place (names.map .name) = some state) :
    state = (links, place ++ names) := by
  induction names generalizing place with
  | nil =>
      obtain ⟨follow, hfollow⟩ := exists_resolve_eq tree links
      rw [hfollow] at h
      cases h
      rw [List.append_nil]
  | cons n names ih =>
      have hsplit : place ++ n :: names = place ++ [n] ++ names := List.append_cons place n names
      have hstep : ∃ entries child, tree.lookup place = some (.directory entries) ∧
          childNamed entries n = some child := by
        obtain ⟨follow, hfollow⟩ := exists_resolve_eq tree links
        rw [hfollow, List.map_cons, resolveWith] at h
        split at h
        · next entries hplace =>
            dsimp only at h
            cases hchild : childNamed entries n with
            | none =>
                rw [hchild] at h
                cases h
            | some child => exact ⟨entries, child, hplace, hchild⟩
        · cases h
      obtain ⟨entries, child, hplace, hchild⟩ := hstep
      have hnot : ∀ target, child ≠ .link target := by
        rintro target rfl
        refine hfree [n] (List.prefix_append [n] names) target ?_
        exact lookup_child hplace hchild
      rw [List.map_cons, resolve_name hplace hchild hnot] at h
      rw [hsplit]
      refine ih (fun front hfront target => ?_) h
      rw [← List.append_cons]
      exact hfree (n :: front) ((List.prefix_cons_inj n).mpr hfront) target

end Resolve

end FileTree
