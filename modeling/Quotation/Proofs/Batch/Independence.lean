import Mathlib.Data.List.Perm.Basic
import Quotation.Proofs.Batch.KeepGoing
import Quotation.Proofs.Batch.Output
import Quotation.Proofs.Resolution.Met

/-!
# Files that do not influence each other

A run that puts its output elsewhere changes nothing but what is in the output directory (`sameOutside_of_comesTo`). So a file that is resolved without looking there comes out as if it had been resolved alone, wherever it stands in the list (`resolveFiles_independent`).
-/

namespace Quotation

open Outcome

variable {t u : Tree} {config : Config} {base file out : Path} {files : List Path} {p : Path} {dir : Place}

/-! ### The output directory -/

theorem Path.isPrefix_normalize_within {names : List Text} (h : Path.up ∉ names) (cwd : Place) :
    out.normalize cwd <+: (out.within ⟨.here, names⟩).normalize cwd := by
  rw [normalize_within]
  exact isPrefix_foldl_step h (out.normalize cwd)

theorem exists_destination_within (base file out : Path) :
    ∃ names, destination base (base.within file) out = out.within ⟨.here, names⟩ ∧ names <:+ file.parts := by
  by_cases habsolute : file.isAbsolute = true
  · rw [Path.within_of_isAbsolute habsolute]
    exact exists_destination_eq base file out
  · obtain ⟨anchor, parts⟩ := file
    obtain rfl : anchor = .here := by simpa [Path.isAbsolute] using habsolute
    rw [destination, Path.relativeTo?_within]
    exact ⟨parts, rfl, List.suffix_refl parts⟩

namespace Tree

/-- There is a directory for output, or something in which one may be made. -/
def HasRoom (t : Tree) (out : Path) : Prop := t.isDir out = .ok true ∨ ∃ entry, t.entry out.parent = .ok entry

def HasAbove (t : Tree) (out : Path) : Prop :=
  ∀ count < out.parts.length, ∃ place, t.walk (t.startOf out) (out.parts.take count) = .ok place ∧ (t.get? place).isSome

theorem HasRoom.hasAbove (h : t.HasRoom out) : t.HasAbove out := by
  intro count hcount
  obtain hdir | ⟨entry, hparent⟩ := h
  · exact exists_walk_take (entry_of_isDir hdir) count
  · have htake : out.parent.parts.take count = out.parts.take count := by
      rw [Path.parent, List.dropLast_eq_take, List.take_take]
      congr 1
      omega
    rw [← htake]
    exact exists_walk_take hparent count

theorem HasRoom.hasStart (h : t.HasRoom out) : t.HasStart out := by
  obtain hdir | ⟨entry, hparent⟩ := h
  · exact hasStart_of_entry (entry_of_isDir hdir)
  · exact hasStart_of_entry (p := out.parent) hparent

theorem sameOutside_of_differsBy {puts : Puts} (h : DiffersBy puts t u) (habove : t.HasAbove out)
    (hdest : ∀ p, puts.dest p → ∃ names, p = out.within ⟨.here, names⟩ ∧ Path.up ∉ names)
    (hholds : ∀ p content, puts.holds p content → puts.dest p) : SameOutside (out.normalize t.cwd) t u := by
  refine ⟨h.cwd, fun other hother => ?_⟩
  cases h.change other with
  | same hsame => exact hsame
  | file p content hp hreach _ _ =>
    obtain ⟨names, rfl, hup⟩ := hdest p (hholds p content hp)
    refine absurd ?_ hother
    rw [← normalize_of_reach hreach, h.cwd]
    exact Path.isPrefix_normalize_within hup t.cwd
  | directory p count hp _ hreach habsent _ =>
    obtain ⟨names, rfl, hup⟩ := hdest p hp
    by_cases hcount : count < out.parts.length
    · have hupTo : (out.within ⟨.here, names⟩).upTo count = out.upTo count := by
        rw [Path.within_of_here, Path.upTo, Path.upTo, List.take_append_of_le_length (Nat.le_of_lt hcount)]
      rw [hupTo] at hreach
      obtain ⟨place, hwalk, hsome⟩ := habove count hcount
      obtain rfl := eq_of_reach_upTo h.keepsDirs hwalk hreach
      simp [habsent] at hsome
    · refine absurd ?_ hother
      have hupTo : (out.within ⟨.here, names⟩).upTo count = out.within ⟨.here, names.take (count - out.parts.length)⟩ := by
        rw [Path.within_of_here, Path.within_of_here, Path.upTo, List.take_append,
          List.take_of_length_le (Nat.le_of_not_lt hcount)]
      rw [← normalize_of_reach hreach, h.cwd, hupTo]
      exact Path.isPrefix_normalize_within (fun hmem => hup (List.mem_of_mem_take hmem)) t.cwd

end Tree

/-! ### Results of a run -/

/-- What a run says about a file that it resolves in the tree, unless it ends there. -/
def resultIn (t : Tree) (config : Config) (base file : Path) : Option FileResult :=
  match (resolveFile t config base file).outcome with
  | .ok resolved => some (.placed ⟨resolved, destination base resolved.source (config.outputDir.getD base)⟩)
  | .error (.citation complaint) => some (.failed (base.within file) complaint)
  | .error (.fault _) => none

theorem resultIn_of_runFile {result : FileResult} (h : (runFile config base t file).outcome = .ok result) :
    resultIn t config base file = some result := by
  cases result with
  | failed source complaint =>
    obtain ⟨hresolve, -, rfl, -⟩ := exists_of_failed h
    rw [resultIn, hresolve]
  | placed placed =>
    obtain ⟨hresolve, hdest, -, -⟩ := exists_of_placed h
    rw [resultIn, hresolve]
    dsimp only
    rw [← hdest]

/-- Putting output in its place can fail, but not for a citation. -/
theorem place_ne_citation {dest : Path} {resolved : Resolved} (complaint : Complaint) :
    (place t config dest resolved).outcome ≠ .error (.citation complaint) := by
  have hfinish : ∀ x : Except Fault Unit, x.mapError Failure.fault ≠ .error (.citation complaint) := by
    intro x
    cases x <;> simp [Except.mapError]
  rw [place]
  split
  · exact hfinish _
  · split
    · split
      · simp
      · exact hfinish _
    · simp
    · simp

theorem resolveFile_of_runFile {complaint : Complaint} (h : (runFile config base t file).outcome = .error (.citation complaint)) :
    (resolveFile t config base file).outcome = .error (.citation complaint) := by
  rw [runFile] at h
  dsimp only at h
  split at h
  · next hresolve =>
    split at h
    · cases h
    · obtain rfl := Failure.citation.inj (Except.error.inj h)
      exact hresolve
  · cases h
  · next resolved hresolve =>
    split at h
    · next failure hplace =>
      obtain rfl := Except.error.inj h
      exact absurd hplace (place_ne_citation complaint)
    · cases h

theorem results_of_resolveFiles {initial : Tree} {run : Run} (h : (resolveFiles config base t files).outcome = .ok run)
    (hsame : ∀ u file, ComesTo config base t files u file →
      resolveFile u config base file = resolveFile initial config base file) :
    run.results.map some = files.map (resultIn initial config base) := by
  induction files generalizing t run with
  | nil =>
    obtain rfl := Except.ok.inj h
    rfl
  | cons file rest ih =>
    obtain ⟨result, others, hfirst, hothers, rfl⟩ := resolveFiles_cons_eq_ok_iff.1 h
    have hresult : resultIn initial config base file = some result := by
      rw [resultIn, ← hsame t file comesTo_head]
      exact resultIn_of_runFile hfirst
    rw [List.map_cons, List.map_cons, hresult, ih hothers]
    intro u other hcomes
    exact hsame u other (hcomes.tail hfirst)

theorem exists_comesTo_of_error {failure : Failure} (h : (resolveFiles config base t files).outcome = .error failure) :
    ∃ u file, ComesTo config base t files u file ∧ (runFile config base u file).outcome = .error failure := by
  induction files generalizing t with
  | nil => cases h
  | cons file rest ih =>
    cases hfirst : (runFile config base t file).outcome with
    | error first =>
      rw [resolveFiles_cons_of_error hfirst] at h
      obtain rfl := Except.error.inj h
      exact ⟨t, file, comesTo_head, hfirst⟩
    | ok result =>
      rw [resolveFiles_cons_of_ok hfirst] at h
      have hrest : (resolveFiles config base (runFile config base t file).tree rest).outcome = .error failure := by
        cases houtcome : (resolveFiles config base (runFile config base t file).tree rest).outcome with
        | ok run => simp [houtcome, Except.map] at h
        | error later => simpa [houtcome, Except.map] using h
      obtain ⟨u, other, hcomes, houtcome⟩ := ih hrest
      exact ⟨u, other, hcomes.tail hfirst, houtcome⟩

theorem exists_of_resolveFiles_error {complaint : Complaint}
    (h : (resolveFiles config base t files).outcome = .error (.citation complaint)) :
    ∃ u file, ComesTo config base t files u file ∧ (resolveFile u config base file).outcome = .error (.citation complaint) := by
  obtain ⟨u, file, hcomes, hrun⟩ := exists_comesTo_of_error h
  exact ⟨u, file, hcomes, resolveFile_of_runFile hrun⟩

/-! ### Independence -/

/-- Neither the file nor anything that is looked up for one of its markers is looked for at `dir` or below. -/
structure LooksElsewhere (dir : Place) (t : Tree) (config : Config) (base file : Path) : Prop where
  source : t.KeepsClear dir (base.within file)
  probed : ∀ ctx body, MeetsIn t config base (base.within file) ctx body →
    ∀ p ∈ Reading.probed t ctx body, t.KeepsClear dir p

/-- A file comes out the same if it is the same and nothing is looked up where the trees differ. -/
theorem resolveFile_of_probed (h : Tree.SameOutside dir t u) (hsource : u.entry (base.within file) = t.entry (base.within file))
    (hprobed : ∀ ctx body, MeetsIn t config base (base.within file) ctx body →
      ∀ p ∈ Reading.probed t ctx body, t.KeepsClear dir p) :
    resolveFile u config base file = resolveFile t config base file := by
  refine resolveFile_congr (Tree.citedLines_of_entry_eq hsource) fun ctx body hmeets => ?_
  have hciting : u.entry ctx.citingFile = t.entry ctx.citingFile := by
    obtain ⟨lines, hlines, hmet⟩ := hmeets
    refine hmet.citingFile (P := fun p => u.entry p = t.entry p) hsource fun inner other c target hother hfound => ?_
    exact Tree.entry_of_sameOutside h (hprobed inner other ⟨lines, hlines, hother⟩ target (Reading.mem_probed_of_found hfound))
  exact readsSame_of_entry_eq hciting fun p hp => Tree.entry_of_sameOutside h (hprobed ctx body hmeets p hp)

theorem resolveFile_of_sameOutside (h : Tree.SameOutside dir t u) (hfile : LooksElsewhere dir t config base file) :
    resolveFile u config base file = resolveFile t config base file :=
  resolveFile_of_probed h (Tree.entry_of_sameOutside h hfile.source) hfile.probed

/-- On its way through the files, a run changes nothing outside the output directory. -/
theorem sameOutside_of_comesTo (hout : config.outputDir = some out) (hroom : t.HasRoom out)
    (hdown : ∀ file ∈ files, Path.up ∉ file.parts) (h : ComesTo config base t files u file) :
    Tree.SameOutside (out.normalize t.cwd) t u := by
  obtain ⟨earlier, later, before, rfl, hbefore, rfl⟩ := h
  have hgetD : config.outputDir.getD base = out := by rw [hout, Option.getD_some]
  have hdiffers : Tree.DiffersBy (outputs config base t earlier) t (resolveFiles config base t earlier).tree :=
    differsBy_resolveFiles (by rw [hgetD]; exact hroom.hasStart)
  refine Tree.sameOutside_of_differsBy hdiffers hroom.hasAbove ?_ ?_
  · intro p hp
    obtain ⟨job, ⟨hcomes, hresolve⟩, rfl⟩ := hp
    obtain ⟨names, hnames, hsuffix⟩ := exists_destination_within base job.file out
    refine ⟨names, ?_, fun hup => ?_⟩
    · rw [Job.dest, hgetD, source_of_resolveFile hresolve, hnames]
    · exact hdown job.file (List.mem_append_left _ hcomes.mem) (hsuffix.subset hup)
  · intro p content hp
    obtain ⟨job, hdone, hdest, -⟩ := hp
    exact ⟨job, hdone, hdest⟩

theorem resolveFile_of_comesTo (hout : config.outputDir = some out) (hroom : t.HasRoom out)
    (hdown : ∀ file ∈ files, Path.up ∉ file.parts) (hcomes : ComesTo config base t files u file)
    (helsewhere : LooksElsewhere (out.normalize t.cwd) t config base file) :
    resolveFile u config base file = resolveFile t config base file :=
  resolveFile_of_sameOutside (sameOutside_of_comesTo hout hroom hdown hcomes) helsewhere

/-- A run with an output directory of its own resolves each file as if it were the only one. -/
theorem resolveFiles_independent (hout : config.outputDir = some out) (hroom : t.HasRoom out)
    (hdown : ∀ file ∈ files, Path.up ∉ file.parts)
    (helsewhere : ∀ u file, ComesTo config base t files u file → LooksElsewhere (out.normalize t.cwd) t config base file) :
    (∀ u file, ComesTo config base t files u file → resolveFile u config base file = resolveFile t config base file) ∧
      (∀ run, (resolveFiles config base t files).outcome = .ok run →
        run.results.map some = files.map (resultIn t config base)) ∧
      (∀ complaint, (resolveFiles config base t files).outcome = .error (.citation complaint) →
        ∃ u file, ComesTo config base t files u file ∧
          (resolveFile t config base file).outcome = .error (.citation complaint)) ∧
      ∀ order, order.Perm files →
        (∀ u file, ComesTo config base t order u file → LooksElsewhere (out.normalize t.cwd) t config base file) →
        (∀ u u' file, ComesTo config base t files u file → ComesTo config base t order u' file →
          resolveFile u' config base file = resolveFile u config base file) ∧
        ∀ run run', (resolveFiles config base t files).outcome = .ok run →
          (resolveFiles config base t order).outcome = .ok run' → run'.results.Perm run.results := by
  have hfiles := fun u file hcomes => resolveFile_of_comesTo hout hroom hdown hcomes (helsewhere u file hcomes)
  refine ⟨hfiles, fun run hrun => results_of_resolveFiles hrun hfiles, ?_, ?_⟩
  · intro complaint herror
    obtain ⟨u, file, hcomes, houtcome⟩ := exists_of_resolveFiles_error herror
    exact ⟨u, file, hcomes, by rw [← hfiles u file hcomes, houtcome]⟩
  · intro order hperm helsewhere'
    have hdown' : ∀ file ∈ order, Path.up ∉ file.parts := fun file hfile => hdown file (hperm.mem_iff.1 hfile)
    have horder := fun u file hcomes => resolveFile_of_comesTo hout hroom hdown' hcomes (helsewhere' u file hcomes)
    refine ⟨fun u u' file hcomes hcomes' => (horder u' file hcomes').trans (hfiles u file hcomes).symm, ?_⟩
    intro run run' hrun hrun'
    have hmapped : (run'.results.map some).Perm (run.results.map some) := by
      rw [results_of_resolveFiles hrun hfiles, results_of_resolveFiles hrun' horder]
      exact hperm.map _
    simpa [List.filterMap_map] using hmapped.filterMap id

theorem looksElsewhere_of_not_recursive (lines : List Text) (hflat : config.recursive = false)
    (hsource : t.KeepsClear dir (base.within file)) (hlines : t.citedLines config.encoding (base.within file) = .ok lines)
    (hprobed : ∀ body ∈ lines.flatMap Segment.markers,
      ∀ p ∈ Reading.probed t { baseDir := base, citingFile := base.within file } body, t.KeepsClear dir p) :
    LooksElsewhere dir t config base file := by
  refine ⟨hsource, fun ctx body hmeets => ?_⟩
  obtain ⟨others, hothers, hmet⟩ := hmeets
  obtain rfl := Except.ok.inj (hlines.symm.trans hothers)
  obtain ⟨rfl, hbody⟩ := hmet.of_not_recursive hflat
  rw [hflat]
  exact hprobed body hbody

def chainTree : Tree :=
  ⟨[], .file "a".toList (Charset.Utf8.encode "[b]\n".toList)
    (.file "b".toList (Charset.Utf8.encode "[c]\n".toList)
      (.file "c".toList (Charset.Utf8.encode "x\n".toList) .empty))⟩

def chainFiles : List Path := ["a", "b"].map fun file => Path.ofText file.toList

def chainConfig : Config := { outputDir := some (Path.ofText "o".toList) }

theorem chain_independent_in_output_directory :
    ∃ run run', (resolveFiles chainConfig Path.here chainTree chainFiles).outcome = .ok run ∧
      (resolveFiles chainConfig Path.here chainTree chainFiles.reverse).outcome = .ok run' ∧ run'.results.Perm run.results := by
  let first : FileResult := .placed ⟨⟨Path.ofText "a".toList, ["[c]".toList], true, 1, []⟩, Path.ofText "o/a".toList⟩
  let second : FileResult := .placed ⟨⟨Path.ofText "b".toList, ["x".toList], true, 1, []⟩, Path.ofText "o/b".toList⟩
  have hrun : (resolveFiles chainConfig Path.here chainTree chainFiles).outcome = .ok ⟨[first, second]⟩ := by decide +kernel
  have hrun' : (resolveFiles chainConfig Path.here chainTree chainFiles.reverse).outcome = .ok ⟨[second, first]⟩ := by
    decide +kernel
  have helsewhere : ∀ file ∈ chainFiles, LooksElsewhere ["o".toList] chainTree chainConfig Path.here file := by
    intro file hfile
    obtain rfl | rfl : file = Path.ofText "a".toList ∨ file = Path.ofText "b".toList := by simpa [chainFiles] using hfile
    · exact looksElsewhere_of_not_recursive ["[b]".toList] rfl (by decide +kernel) (by decide +kernel) (by decide +kernel)
    · exact looksElsewhere_of_not_recursive ["[c]".toList] rfl (by decide +kernel) (by decide +kernel) (by decide +kernel)
  have hout : chainConfig.outputDir = some (Path.ofText "o".toList) := rfl
  have hroom : chainTree.HasRoom (Path.ofText "o".toList) := .inr ⟨.directory, by decide +kernel⟩
  have hdown : ∀ file ∈ chainFiles, Path.up ∉ file.parts := by decide +kernel
  have hfiles : ∀ u file, ComesTo chainConfig Path.here chainTree chainFiles u file →
      LooksElsewhere ["o".toList] chainTree chainConfig Path.here file := fun u file hcomes => helsewhere file hcomes.mem
  have horder : ∀ u file, ComesTo chainConfig Path.here chainTree chainFiles.reverse u file →
      LooksElsewhere ["o".toList] chainTree chainConfig Path.here file :=
    fun u file hcomes => helsewhere file (List.mem_reverse.1 hcomes.mem)
  obtain ⟨-, -, -, hperm⟩ := resolveFiles_independent hout hroom hdown hfiles
  exact ⟨_, _, hrun, hrun', (hperm chainFiles.reverse (List.reverse_perm chainFiles) horder).2 _ _ hrun hrun'⟩

end Quotation
