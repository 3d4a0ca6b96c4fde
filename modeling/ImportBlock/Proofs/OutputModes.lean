import ImportBlock.Proofs.Processing

/-!
# All ways to show a result agree

A job may print the formatted text, write it back, name the file or show a diff, and some of these
together. On a file of any volume, without faults, each run is determined by one formatted text
(`Job.run_completes`): what is shown follows from it (`Job.shown`), and the file holds it afterwards
when it is to be written back. So the runs with different settings agree (`Job.modes_agree`).
-/

namespace ImportBlock

/-! ## A file after a write, on any volume -/

namespace Volume

/-- The second volume has the entries of the first under the same names, except that `f` may give
other content to files. -/
structure Revises (f : Text → Entry → Entry) (v v' : Volume) : Prop where
  kind : v'.kind = v.kind
  find? : ∀ n, v'.find? n = (v.find? n).map (f n)
  isDirectory : ∀ n e, (f n e).isDirectory = e.isDirectory
  directory : ∀ n e, e.isDirectory = true → f n e = e

theorem Revises.refl (v : Volume) : Revises (fun _ e => e) v v where
  kind := rfl
  find? n := by simp
  isDirectory _ _ := rfl
  directory _ _ _ := rfl

/-- The entry under a name once the name `changed` has other content. -/
def revised (changed content name : Text) (e : Entry) : Entry :=
  if name = changed then e.withContent content else e

theorem revises_setContent (v : Volume) (changed content : Text) :
    Revises (revised changed content) v (v.setContent changed content) where
  kind := rfl
  find? n := by
    rw [find?_setContent]
    unfold revised
    split_ifs <;> simp
  isDirectory n e := by
    unfold revised
    split_ifs
    · cases e <;> rfl
    · rfl
  directory n e he := by
    unfold revised
    split_ifs
    · cases e with
      | file c m => cases he
      | directory m => rfl
    · rfl

section Revises

variable {f : Text → Entry → Entry} {v v' : Volume} (hv : Revises f v v')

include hv

/-- A path goes through directories only, so it ends at the same name. -/
theorem Revises.follow {action path name : Text} {e here : Entry} {above : Nat}
    {stack cs : List Text} (h : v.follow action path above stack here cs = .ok (name, e))
    (action' : Text) :
    v'.follow action' path above stack (f (diskName (Path.isRooted path) stack.reverse) here) cs =
      .ok (name, f name e) := by
  fun_induction Volume.follow v action path above stack here cs with
  | case1 above stack here =>
    cases h
    rfl
  | case3 above stack here c cs hdir hdot ih =>
    simpa [Volume.follow, hv.isDirectory, hdir, hdot] using ih h
  | case4 above here c cs hdir hdot hup ih =>
    simpa [Volume.follow, hv.isDirectory, hdir, hdot, hup] using ih h
  | case5 above here c cs hdir hdot hup top rest ih =>
    have hrest := ih h
    rw [hv.directory _ _ rfl] at hrest
    simpa [Volume.follow, hv.isDirectory, hdir, hdot, hup] using hrest
  | case7 above stack here c cs hdir hdot hup hlong found e' hfound ih =>
    have hfound' : (if above = 0 then v'.find? found else none) = some (f found e') := by
      split_ifs at hfound ⊢
      rw [hv.find?, hfound]
      rfl
    simp only [Volume.follow, hv.isDirectory, hdir, hdot, hup, hlong, if_false]
    rw [hfound']
    exact ih h
  | case2 | case6 | case8 => cases h

/-- What a path leads to, whatever is attempted there. -/
theorem Revises.locate {action path name : Text} {e : Entry}
    (h : v.locate action path = .ok (name, e)) (action' : Text) :
    v'.locate action' path = .ok (name, f name e) := by
  unfold Volume.locate at h ⊢
  rw [hv.kind]
  rcases hkind : v.kind with _ | _
  · simp only [hkind] at h ⊢
    rw [hv.find?]
    rcases hfind : v.find? (memoryName path) with _ | e'
    · simp only [hfind] at h
      split_ifs at h with hroot
      cases h
      simp [hroot, hv.directory _ (.directory 0o755) rfl]
    · simp only [hfind] at h
      cases h
      rfl
  · simp only [hkind] at h ⊢
    split_ifs at h ⊢
    have hfollow := hv.follow h action'
    rwa [hv.directory _ _ rfl] at hfollow

end Revises

section File

variable {v : Volume} {path src : Text} {mode : Nat}

theorem locate_of_stat {e : Entry} (h : v.stat path = .ok e) (action : Text) :
    ∃ name, v.locate action path = .ok (name, e) := by
  unfold stat at h
  rcases hloc : v.locate "stat" path with _ | ⟨name, e'⟩
  · rw [hloc] at h
    cases h
  · rw [hloc] at h
    cases h
    exact ⟨name, (Revises.refl v).locate hloc action⟩

theorem read_of_stat (h : v.stat path = .ok (.file src mode)) : v.read path = .ok src := by
  obtain ⟨name, hloc⟩ := locate_of_stat h "open"
  unfold read
  rw [hloc]
  simp [bind, Except.bind, Entry.isDirectory, Entry.content]

/-- A file that is there can be written, and then holds what was written. -/
theorem write_of_stat (h : v.stat path = .ok (.file src mode)) (content : Text) :
    ∃ v', v.write path content = .ok v' ∧ v'.stat path = .ok (.file content mode) := by
  obtain ⟨name, hloc⟩ := locate_of_stat h "open"
  refine ⟨v.setContent name content, ?_, ?_⟩
  · unfold write
    rw [hloc]
    rfl
  · unfold stat
    rw [(v.revises_setContent name content).locate hloc]
    simp [revised, Entry.withContent, Except.map]

end File

end Volume

/-! ## Runs without faults -/

theorem Rules.changed_format_iff (r : Rules) (src : Text) :
    (r.format src).changed = true ↔ (r.format src).out ≠ src := by
  rw [format_eq]
  simp

namespace Host

variable {h : Host} (hfaults : h.faults = .none)

include hfaults

theorem stat_of_no_faults (path : Text) :
    h.stat path = (h.volume.stat path, { h with lookups := h.lookups + 1 }) := by
  simp [stat, hfaults, Faults.none]

theorem read_of_no_faults (path : Text) : h.read path = h.volume.read path := by
  simp [read, hfaults, Faults.none]

theorem write_of_no_faults (path content : Text) :
    h.write path content =
      (h.volume.write path content).map fun v => { h with volume := v } := by
  simp [write, hfaults, Faults.none]

theorem print_of_no_faults (t : Text) : h.print t = .ok t := by
  simp [print, hfaults, Faults.none]

end Host

namespace Job

/-- What is printed about a formatted text if nothing fails. -/
def shown (j : Job) (name src : Text) (f : Formatted) : Text :=
  if j.list then if f.changed then name ++ [10] else []
  else if j.diff then if f.changed then Diff.report j.color name src f.out else []
  else if j.inPlace && !Path.isStandardInput j.path then []
  else f.out

/-- How a run over a file ends: what it prints is known, and the file holds the formatted text
afterwards if it is to be written back. Otherwise the volume stays as it was. -/
structure Completes (j : Job) (v : Volume) (src : Text) (mode : Nat) (o : Outcome) : Prop where
  error : o.error = none
  out : o.out = j.shown j.path src (j.rules.format src)
  kept : j.inPlace = false → o.host.volume = v
  written : j.inPlace = true →
    o.host.volume.stat j.path = .ok (.file (j.rules.format src).out mode)

section NoFaults

variable {h : Host} (hfaults : h.faults = .none) {src : Text} {mode : Nat}

include hfaults

theorem report_eq (j : Job) (name src : Text) (f : Formatted) :
    j.report h name src f = .ok (j.shown name src f) := by
  unfold report shown
  simp only [Host.print_of_no_faults hfaults, Except.mapError]
  split_ifs <;> rfl

theorem writeBack_completes (j : Job) (records : List LogRecord)
    (hfile : h.volume.stat j.path = .ok (.file src mode)) :
    j.Completes h.volume src mode (j.writeBack h (j.rules.format src)
      (j.shown j.path src (j.rules.format src)) records) := by
  unfold writeBack
  rcases hplace : j.inPlace with _ | _
  · exact ⟨rfl, rfl, fun _ => rfl, by simp [hplace]⟩
  rcases hchanged : (j.rules.format src).changed with _ | _
  · -- nothing is written, and the file holds the formatted text already
    have hout : (j.rules.format src).out = src := by
      by_contra hne
      rw [(Rules.changed_format_iff _ _).mpr hne] at hchanged
      cases hchanged
    exact ⟨rfl, rfl, by simp [hplace], fun _ => by rw [hout]; exact hfile⟩
  · obtain ⟨v', hwrite, hstat⟩ := Volume.write_of_stat hfile (j.rules.format src).out
    have hhost : h.write j.path (j.rules.format src).out = .ok { h with volume := v' } := by
      rw [Host.write_of_no_faults hfaults, hwrite]
      rfl
    rw [hhost]
    exact ⟨rfl, rfl, by simp [hplace], fun _ => hstat⟩

theorem runFile_completes (j : Job) (hsource : Path.isSource j.path j.extensions = true)
    (hfile : h.volume.stat j.path = .ok (.file src mode)) :
    j.Completes h.volume src mode (j.runFile h) := by
  let h' : Host := { h with lookups := h.lookups + 1 }
  have hstat : h.stat j.path = (.ok (.file src mode), h') := by
    rw [Host.stat_of_no_faults hfaults, hfile]
  have hread : h'.read j.path = .ok src := by
    rw [Host.read_of_no_faults (h := h') hfaults]
    exact Volume.read_of_stat hfile
  have hreport := report_eq (h := h') hfaults j j.path src (j.rules.format src)
  unfold runFile
  simp only [hsource, hstat, hread, hreport, Bool.not_true, Bool.false_eq_true, if_false]
  exact writeBack_completes (h := h') hfaults j _ hfile

theorem run_completes (j : Job) (hpath : Path.isStandardInput j.path = false)
    (hsource : Path.isSource j.path j.extensions = true)
    (hfile : h.volume.stat j.path = .ok (.file src mode)) :
    j.Completes h.volume src mode (j.run h) := by
  let h' : Host := { h with lookups := h.lookups + 1 }
  have hrun : j.run h = j.runFile h' := by
    unfold run
    rw [hpath, Host.stat_of_no_faults hfaults, hfile]
    rfl
  rw [hrun]
  exact runFile_completes (h := h') hfaults j hsource hfile

theorem run_of_input (j : Job) (hpath : Path.isStandardInput j.path = true)
    (hinput : h.input = src) :
    (j.run h).error = none ∧ (j.run h).out = j.shown inputName src (j.rules.format src) ∧
      (j.run h).host.volume = h.volume := by
  have hread : h.readInput = .ok src := by
    simp [Host.readInput, hfaults, Faults.none, hinput]
  have hreport := report_eq hfaults j inputName src (j.rules.format src)
  unfold run runInput
  simp [hpath, hread, hreport]

end NoFaults

/-! ## What is shown -/

theorem shown_list {j : Job} (h : j.list = true) (name src : Text) :
    j.shown name src (j.rules.format src) =
      if (j.rules.format src).out = src then [] else name ++ [10] := by
  unfold shown
  rw [if_pos h]
  simp only [Rules.changed_format_iff, ite_not]

/-- A diff starts with the names of what is compared, so it is never empty. -/
theorem shown_diff_ne_nil_iff {j : Job} (hlist : j.list = false) (hdiff : j.diff = true)
    (name src : Text) :
    j.shown name src (j.rules.format src) ≠ [] ↔ (j.rules.format src).out ≠ src := by
  rw [← Rules.changed_format_iff]
  unfold shown
  rcases (j.rules.format src).changed with _ | _ <;> simp [hlist, hdiff, Diff.report]

/-- Whether the file is written back makes no difference to a list or a diff. -/
theorem shown_inPlace {j : Job} (h : j.list = true ∨ j.diff = true) (inPlace : Bool)
    (name src : Text) (f : Formatted) :
    { j with inPlace }.shown name src f = j.shown name src f := by
  unfold shown
  rcases h with h | h <;> simp [h]

/-- **All ways to show a result agree.** The runs of a job on one file, without faults, have one
formatted text `x` in common. The plain run prints it, a run in place leaves it in the file, and so
does a run on standard input. A list or a diff shows something exactly if `x` differs from what the
file holds, and shows the same when the file is also written back. -/
theorem modes_agree (j : Job) (h : Host) (src : Text) (mode : Nat)
    (hpath : Path.isStandardInput j.path = false)
    (hsource : Path.isSource j.path j.extensions = true)
    (hfile : h.volume.stat j.path = .ok (.file src mode)) (hfaults : h.faults = .none) :
    let run (inPlace list diff : Bool) : Outcome := { j with inPlace, list, diff }.run h
    let filter (inPlace : Bool) (extensions : List Text) : Outcome :=
      { j with path := Path.standardInput, extensions, inPlace, list := false, diff := false }.run
        { h with input := src }
    let x := (j.rules.format src).out
    (∀ inPlace list diff, (run inPlace list diff).error = none) ∧
    (∀ list diff, (run false list diff).host.volume = h.volume) ∧
    (∀ list diff, (run true list diff).host.volume.stat j.path = .ok (.file x mode)) ∧
    (run false false false).out = x ∧
    (run true false false).out = [] ∧
    (∀ diff, (run false true diff).out = if x = src then [] else j.path ++ [10]) ∧
    ((run false false true).out ≠ [] ↔ x ≠ src) ∧
    (∀ list diff, list = true ∨ diff = true →
      (run true list diff).out = (run false list diff).out) ∧
    ∀ inPlace extensions, (filter inPlace extensions).error = none ∧
      (filter inPlace extensions).out = x ∧ (filter inPlace extensions).host.volume = h.volume := by
  intro run filter x
  have hrun : ∀ inPlace list diff, { j with inPlace, list, diff }.Completes h.volume src mode
      (run inPlace list diff) := fun _ _ _ => run_completes hfaults _ hpath hsource hfile
  refine ⟨fun i l d => (hrun i l d).error, fun l d => (hrun false l d).kept rfl,
    fun l d => (hrun true l d).written rfl, ?_, ?_, ?_, ?_, ?_, ?_⟩
  · rw [(hrun false false false).out]
    simp [shown, x]
  · rw [(hrun true false false).out]
    simp [shown, hpath]
  · intro diff
    rw [(hrun false true diff).out, shown_list rfl]
  · rw [(hrun false false true).out, shown_diff_ne_nil_iff rfl rfl]
  · intro list diff hmode
    rw [(hrun true list diff).out, (hrun false list diff).out]
    exact shown_inPlace (j := { j with inPlace := false, list, diff }) hmode true _ _ _
  · intro inPlace extensions
    obtain ⟨herror, hout, hvolume⟩ := run_of_input (h := { h with input := src }) hfaults
      { j with path := Path.standardInput, extensions, inPlace, list := false, diff := false }
      rfl rfl
    refine ⟨herror, ?_, hvolume⟩
    refine hout.trans ?_
    simp [shown, x, Path.isStandardInput]

/-- A file in a directory of a disk, reached by a path that is not in its shortest form. -/
theorem modes_agree_disk :
    let v : Volume := ⟨.disk, [("src", .directory 0o755),
      ("src/a.swift", .file "import B\r\nimport A" 0o600)]⟩
    let j : Job := ⟨"./src/../src/a.swift", [".swift"], Rules.standard, false, false, false, true⟩
    let h := Host.start v [] Faults.none
    v.stat j.path = .ok (.file "import B\r\nimport A" 0o600) ∧
      ({ j with inPlace := false, list := false, diff := false }.run h).out =
        Text.ofString "import A\r\nimport B" ∧
      ({ j with inPlace := true, list := false, diff := true }.run h).out ≠ [] ∧
      ({ j with inPlace := true, list := false, diff := true }.run h).host.volume.stat j.path =
        .ok (.file "import A\r\nimport B" 0o600) := by
  intro v j h
  have hfile : v.stat j.path = .ok (.file "import B\r\nimport A" 0o600) := by decide +kernel
  have hx : (j.rules.format "import B\r\nimport A").out = Text.ofString "import A\r\nimport B" := by
    decide +kernel
  have hrun := modes_agree j h _ _ (by decide +kernel) (by decide +kernel) hfile rfl
  simp only [hx] at hrun
  obtain ⟨-, -, hstat, hout, -, -, hdiff, hsame, -⟩ := hrun
  refine ⟨hfile, hout, ?_, hstat false true⟩
  rw [hsame false true (Or.inr rfl)]
  exact hdiff.mpr (by decide)

end Job

end ImportBlock
