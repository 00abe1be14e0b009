import ImageRegistry.Files.Tree

/-!
# Following paths

A path is followed part by part, and its parts are of three kinds: what stays where it is, what goes
up, and names. What following a name comes to depends on what stands there, so there is one equation
for each (`walk_missing`, `walk_directory`, `walk_file`, `walk_link`). A symbolic link puts its
target before what is left of the path, so the path grows, and what falls is the number of links
that may still be followed. `walk_induction` is the induction over both.
-/

namespace ImageRegistry.Files

/-- A part of a path that goes somewhere below. -/
def IsName (part : ByteArray) : Prop := staysHere part = false ∧ part ≠ up

namespace Tree

variable {t : Tree} {follow : Bool} {fuel : Nat} {place q : Place} {name : ByteArray}

theorem walk_stays {part : ByteArray} (h : staysHere part = true) (rest : List ByteArray) :
    t.walk follow fuel place (part :: rest) = t.walk follow fuel place rest := by
  rw [walk_cons, if_pos h]

theorem walk_up (t : Tree) (follow : Bool) (fuel : Nat) (place : Place) (rest : List ByteArray) :
    t.walk follow fuel place (up :: rest) = t.walk follow fuel place.dropLast rest := by
  rw [walk_cons, if_neg (by decide), if_pos rfl]

/-! ### Names -/

theorem walk_tooLong (hname : IsName name) (hsize : maxName < name.size)
    (rest : List ByteArray) : t.walk follow fuel place (name :: rest) = .error .nameTooLong := by
  rw [walk_cons, if_neg (by rw [hname.1]; decide), if_neg hname.2, if_pos hsize]

section

variable (hname : IsName name) (hsize : name.size ≤ maxName)
include hname hsize

theorem walk_missing (hnode : t.node? (place ++ [name]) = none) (rest : List ByteArray) :
    t.walk follow fuel place (name :: rest) =
      if rest.isEmpty then .ok (place ++ [name]) else .error .notFound := by
  rw [walk_cons, if_neg (by rw [hname.1]; decide), if_neg hname.2, if_neg (Nat.not_lt.2 hsize),
    hnode]

theorem walk_directory (hnode : t.node? (place ++ [name]) = some .directory)
    (rest : List ByteArray) : t.walk follow fuel place (name :: rest) =
      t.walk follow fuel (place ++ [name]) rest := by
  rw [walk_cons, if_neg (by rw [hname.1]; decide), if_neg hname.2, if_neg (Nat.not_lt.2 hsize),
    hnode]

theorem walk_file {content : ByteArray} (hnode : t.node? (place ++ [name]) = some (.file content))
    (rest : List ByteArray) : t.walk follow fuel place (name :: rest) =
      if rest.isEmpty then .ok (place ++ [name]) else .error .notADirectory := by
  rw [walk_cons, if_neg (by rw [hname.1]; decide), if_neg hname.2, if_neg (Nat.not_lt.2 hsize),
    hnode]

section Link

variable {target : ByteArray} {rest : List ByteArray}
  (hnode : t.node? (place ++ [name]) = some (.link target))
include hnode

/-- A symbolic link at the very end that is not to be followed is where the path leads. -/
theorem walk_kept (hends : (rest.isEmpty && !follow) = true) :
    t.walk follow fuel place (name :: rest) = .ok (place ++ [name]) := by
  rw [walk_cons, if_neg (by rw [hname.1]; decide), if_neg hname.2, if_neg (Nat.not_lt.2 hsize),
    hnode]
  exact if_pos hends

theorem walk_loop (hfollows : (rest.isEmpty && !follow) = false) :
    t.walk follow 0 place (name :: rest) = .error .linkLoop := by
  rw [walk_cons, if_neg (by rw [hname.1]; decide), if_neg hname.2, if_neg (Nat.not_lt.2 hsize),
    hnode]
  exact if_neg (by rw [hfollows]; decide)

theorem walk_link (hfollows : (rest.isEmpty && !follow) = false) :
    t.walk follow (fuel + 1) place (name :: rest) =
      t.walk follow fuel (origin place target) (parts target ++ rest) := by
  rw [walk_cons, if_neg (by rw [hname.1]; decide), if_neg hname.2, if_neg (Nat.not_lt.2 hsize),
    hnode]
  exact if_neg (by rw [hfollows]; decide)

end Link

end

/-- What is missing and what is a file can only be the end of a path. -/
theorem ends_eq_ok_iff {rest : List ByteArray} {failure : Failure} :
    (if rest.isEmpty then .ok place else .error failure : Except Failure Place) = .ok q ↔
      rest = [] ∧ place = q := by
  cases rest <;> simp

/-! ### Induction over paths -/

/-- What holds of a path that has come to its end, and of a path if it holds of what the path goes
on with, holds of every path. -/
@[elab_as_elim]
theorem walk_induction (t : Tree) (follow : Bool) {motive : Nat → Place → List ByteArray → Prop}
    (arrived : ∀ fuel place, motive fuel place [])
    (stays : ∀ fuel place part rest, staysHere part = true →
      motive fuel place rest → motive fuel place (part :: rest))
    (goesUp : ∀ fuel place rest, motive fuel place.dropLast rest → motive fuel place (up :: rest))
    (tooLong : ∀ fuel place name rest, IsName name → maxName < name.size →
      motive fuel place (name :: rest))
    (missing : ∀ fuel place name rest, IsName name → name.size ≤ maxName →
      t.node? (place ++ [name]) = none → motive fuel place (name :: rest))
    (directory : ∀ fuel place name rest, IsName name → name.size ≤ maxName →
      t.node? (place ++ [name]) = some .directory →
      motive fuel (place ++ [name]) rest → motive fuel place (name :: rest))
    (file : ∀ fuel place name rest content, IsName name → name.size ≤ maxName →
      t.node? (place ++ [name]) = some (.file content) → motive fuel place (name :: rest))
    (kept : ∀ fuel place name rest target, IsName name → name.size ≤ maxName →
      t.node? (place ++ [name]) = some (.link target) → (rest.isEmpty && !follow) = true →
      motive fuel place (name :: rest))
    (loop : ∀ place name rest target, IsName name → name.size ≤ maxName →
      t.node? (place ++ [name]) = some (.link target) → (rest.isEmpty && !follow) = false →
      motive 0 place (name :: rest))
    (link : ∀ fuel place name rest target, IsName name → name.size ≤ maxName →
      t.node? (place ++ [name]) = some (.link target) → (rest.isEmpty && !follow) = false →
      motive fuel (origin place target) (parts target ++ rest) →
      motive (fuel + 1) place (name :: rest))
    (fuel : Nat) (place : Place) (path : List ByteArray) : motive fuel place path := by
  induction fuel using Nat.strongRecOn generalizing place path with
  | ind fuel jumps =>
    induction path generalizing place with
    | nil => exact arrived fuel place
    | cons part rest ih =>
      by_cases hstays : staysHere part = true
      · exact stays fuel place part rest hstays (ih place)
      by_cases hup : part = up
      · exact hup ▸ goesUp fuel place rest (ih place.dropLast)
      have hname : IsName part := ⟨Bool.eq_false_iff.2 hstays, hup⟩
      by_cases hsize : maxName < part.size
      · exact tooLong fuel place part rest hname hsize
      rw [Nat.not_lt] at hsize
      cases hnode : t.node? (place ++ [part]) with
      | none => exact missing fuel place part rest hname hsize hnode
      | some node =>
        cases node with
        | directory => exact directory fuel place part rest hname hsize hnode (ih _)
        | file content => exact file fuel place part rest content hname hsize hnode
        | link target =>
          cases hends : rest.isEmpty && !follow with
          | true => exact kept fuel place part rest target hname hsize hnode hends
          | false =>
            cases fuel with
            | zero => exact loop place part rest target hname hsize hnode hends
            | succ fuel =>
              exact link fuel place part rest target hname hsize hnode hends
                (jumps fuel (Nat.lt_succ_self fuel) _ _)

end Tree

end ImageRegistry.Files
