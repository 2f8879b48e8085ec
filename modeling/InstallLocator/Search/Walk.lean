import InstallLocator.Host

/-!
# Walking a directory

A walk lists everything below a root down to a depth: a directory before its
content, siblings in byte order of their names. Links are not followed, except
that the root may be a link to a directory. A directory that cannot be listed
is one error among the entries.
-/

set_option autoImplicit false

namespace InstallLocator.Search

structure WalkError where
  path : Path
  cause : IoError

def WalkError.message (e : WalkError) : String :=
  "IO error for operation on " ++ e.path.shown ++ ": " ++ e.cause.message

abbrev Visit := Except WalkError (Path × Entry)

def below (h : Host) : Nat → Path → List Visit
  | 0, _ => []
  | depth + 1, p =>
    match h.list p with
    | .error e => [.error ⟨p, e⟩]
    | .ok entries => entries.flatMap fun x =>
      .ok (p.child x.1, x.2) ::
        if x.2.isDirectory then below h depth (p.child x.1) else []

def walk (h : Host) (depth : Nat) (root : Path) : List Visit :=
  match h.statLink root with
  | .error e => [.error ⟨root, e⟩]
  | .ok e =>
    if e.isLink then
      match h.stat root with
      | .error e => [.error ⟨root, e⟩]
      | .ok target => .ok (root, e) :: if target.isDirectory then below h depth root else []
    else .ok (root, e) :: if e.isDirectory then below h depth root else []

end InstallLocator.Search
