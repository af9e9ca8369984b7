import Quotation.Tree.Walk

/-!
# Where references are looked up

An absolute reference stands for itself. A relative one is looked up in the base directory first and then in the directory of the citing file. Inside a quote the quoted file is the citing file and its directory the base.
-/

namespace Quotation

/-- The surroundings in which the references of a text are looked up. -/
structure Context where
  baseDir : Path
  /-- The file the text stands in, or a directory in its stead. -/
  citingFile : Path
  /-- How many quotes the text stands in. -/
  depth : Int := 0
  recursive : Bool := false
  deriving DecidableEq, Repr

namespace Context

def citingDir (t : Tree) (ctx : Context) : Except Fault Path := do
  if ← t.isDir ctx.citingFile then return ctx.citingFile else return ctx.citingFile.parent

def nested (ctx : Context) (target : Path) : Context :=
  { ctx with baseDir := target.parent, citingFile := target, depth := ctx.depth + 1 }

/-- The paths that a reference may stand for, the preferred one first. -/
def candidates (t : Tree) (ctx : Context) (ref : Text) : Except Fault (List Path) :=
  let p := Path.ofText ref
  if p.isAbsolute then .ok [p]
  else (ctx.citingDir t).map fun citing => [ctx.baseDir.within p, citing.within p]

/-- The file that a reference stands for, if there is one. -/
def locate (t : Tree) (ctx : Context) (ref : Text) : Except Fault (Option Path) :=
  (ctx.candidates t ref).map (List.find? t.isFile)

/-- The surroundings of a text that is not read from its file: a directory may stand in for the citing file. -/
def ofCiting (t : Tree) (recursive : Bool) (citing : Path) : Except Fault Context := do
  let base := if ← t.isDir citing then citing else citing.parent
  return { baseDir := base, citingFile := citing, recursive }

theorem isFile_of_locate {t : Tree} {ctx : Context} {ref : Text} {target : Path}
    (h : ctx.locate t ref = .ok (some target)) : t.isFile target = true := by
  rw [locate] at h
  cases hc : ctx.candidates t ref with
  | error fault => rw [hc] at h; cases h
  | ok paths =>
    rw [hc] at h
    exact List.find?_some (Except.ok.inj h)

end Context

end Quotation
