import ImportBlock.Process.Job
import ImportBlock.Proofs.Reformatting

/-!
# Steps over one volume

A step is a job with its own input and its own faults. Several steps share a volume and leave it to
each other. A step that fails leaves the volume as it was, because the only write comes last. A step
that succeeds has an effect that is known for every name (`Job.Effect.find?_eq`): the file at the
path of the job holds its formatted content, if that was asked for, and no other file is touched.
-/

namespace ImportBlock

/-! ## Writing to a memory volume -/

theorem Entry.withContent_content (e : Entry) : e.withContent e.content = e := by
  cases e <;> rfl

namespace Volume

/-- What no write changes: the names, which of them are directories, and the permission bits. -/
def shape (v : Volume) : List (Text × Bool × Nat) :=
  v.entries.map fun e => (e.1, e.2.isDirectory, e.2.mode)

/-- Other content under one name. -/
def setContent (v : Volume) (name content : Text) : Volume :=
  { v with
    entries := v.entries.map fun e => if e.1 == name then (e.1, e.2.withContent content) else e }

theorem shape_setContent (v : Volume) (name content : Text) :
    (v.setContent name content).shape = v.shape := by
  unfold shape setContent
  rw [List.map_map]
  apply List.map_congr_left
  rintro ⟨n, e⟩ -
  by_cases hn : n = name
  · cases e <;> simp [hn, Entry.withContent, Entry.isDirectory, Entry.mode]
  · simp [hn]

theorem find?_setContent (v : Volume) (name content other : Text) :
    (v.setContent name content).find? other =
      if other = name then (v.find? other).map (Entry.withContent content) else v.find? other := by
  have hname : (fun e : Text × Entry => e.1 == other) ∘
      (fun e => if e.1 == name then (e.1, e.2.withContent content) else e) =
        fun e => e.1 == other := by
    funext e
    by_cases he : e.1 = name <;> simp [he]
  unfold find? setContent
  rw [List.find?_map, hname, Option.map_map, Option.map_map]
  split_ifs with ho
  all_goals
    apply Option.map_congr
    intro e he
    have hother : e.1 = other := by simpa using List.find?_some he
    simp [hother, ho]

theorem find?_setContent_self {v : Volume} {name content : Text}
    (h : ∀ e ∈ v.find? name, e.content = content) (other : Text) :
    (v.setContent name content).find? other = v.find? other := by
  rw [find?_setContent]
  split_ifs with hother
  · subst hother
    rcases hfind : v.find? other with _ | e
    · rfl
    · rw [← h e hfind, Option.map_some, e.withContent_content]
  · rfl

theorem write_eq_ok {v v' : Volume} {path content : Text} (h : v.write path content = .ok v') :
    ∃ name e, v.locate "open" path = .ok (name, e) ∧ v' = v.setContent name content := by
  unfold write at h
  rcases hloc : v.locate "open" path with _ | ⟨name, e⟩
  · rw [hloc] at h
    cases h
  · rw [hloc] at h
    exact ⟨name, e, rfl, (Except.ok.inj h).symm⟩

section Memory

variable {v : Volume} (hv : v.kind = .memory)

include hv

theorem locate_memory {action path name : Text} {e : Entry}
    (h : v.locate action path = .ok (name, e)) :
    name = memoryName path ∧ ∀ e', v.find? name = some e' → e' = e := by
  unfold locate at h
  rw [hv] at h
  rcases hfind : v.find? (memoryName path) with _ | e'
  · simp only [hfind] at h
    split_ifs at h
    cases h
    exact ⟨rfl, by simp [hfind]⟩
  · simp only [hfind] at h
    cases h
    exact ⟨rfl, by simp [hfind]⟩

/-- What is read is the content of the entry, if there is one. -/
theorem content_of_read {path src : Text} (h : v.read path = .ok src) {e : Entry}
    (he : v.find? (memoryName path) = some e) : e.content = src := by
  unfold read at h
  rcases hloc : v.locate "open" path with _ | ⟨name, e'⟩
  · rw [hloc] at h
    cases h
  · obtain ⟨rfl, hentry⟩ := locate_memory hv hloc
    rw [hloc] at h
    have hcontent : e'.content = src := by simpa [hv, bind, Except.bind] using h
    rw [hentry e he, hcontent]

theorem write_memory {v' : Volume} {path content : Text} (h : v.write path content = .ok v') :
    v' = v.setContent (memoryName path) content := by
  obtain ⟨name, e, hloc, rfl⟩ := write_eq_ok h
  rw [(locate_memory hv hloc).1]

end Memory

end Volume

/-! ## What a job does to the volume -/

namespace Host

theorem volume_of_stat {h h' : Host} {path : Text} {r : Except FileError Entry}
    (hstat : h.stat path = (r, h')) : h'.volume = h.volume := by
  cases hstat
  rfl

theorem read_eq_ok {h : Host} {path src : Text} (hread : h.read path = .ok src) :
    h.volume.read path = .ok src := by
  unfold read at hread
  split_ifs at hread
  exact hread

theorem write_eq_ok {h h' : Host} {path content : Text} (hwrite : h.write path content = .ok h') :
    h.volume.write path content = .ok h'.volume := by
  unfold write at hwrite
  split_ifs at hwrite
  rcases hvol : h.volume.write path content with _ | v
  · rw [hvol] at hwrite
    cases hwrite
  · rw [hvol] at hwrite
    cases hwrite
    rfl

end Host

/-- An outcome with an error and the volume as it was, or without an error and with the given
effect on the volume. -/
def Outcome.Settles (o : Outcome) (v : Volume) (effect : Volume → Prop) : Prop :=
  (o.error ≠ none ∧ o.host.volume = v) ∨ (o.error = none ∧ effect o.host.volume)

theorem Outcome.Settles.imp {o : Outcome} {v : Volume} {effect effect' : Volume → Prop}
    (h : o.Settles v effect) (himp : ∀ v', effect v' → effect' v') : o.Settles v effect' :=
  h.imp_right fun hdone => ⟨hdone.1, himp _ hdone.2⟩

namespace Job

/-- The volume after a formatted text has been written back, if that is asked for and the text
changed. -/
def WritesBack (j : Job) (f : Formatted) (v v' : Volume) : Prop :=
  if j.inPlace && f.changed then v.write j.path f.out = .ok v' else v' = v

/-- The volume after a job on a file that can be read. -/
structure Effect (j : Job) (v v' : Volume) : Prop where
  source : Path.isSource j.path j.extensions = true
  written : ∃ src, v.read j.path = .ok src ∧ j.WritesBack (j.rules.format src) v v'

theorem writeBack_settles (j : Job) (h : Host) (f : Formatted) (out : Text)
    (records : List LogRecord) :
    (j.writeBack h f out records).Settles h.volume (j.WritesBack f h.volume) := by
  unfold writeBack WritesBack
  rcases j.inPlace with _ | _
  · exact Or.inr ⟨rfl, rfl⟩
  · rcases f.changed with _ | _
    · exact Or.inr ⟨rfl, rfl⟩
    · rcases hwrite : h.write j.path f.out with e | h'
      · exact Or.inl ⟨by simp, rfl⟩
      · exact Or.inr ⟨rfl, Host.write_eq_ok hwrite⟩

theorem runFile_settles (j : Job) (h : Host) :
    (j.runFile h).Settles h.volume (j.Effect h.volume) := by
  unfold runFile
  rcases hsource : Path.isSource j.path j.extensions with _ | _
  · exact Or.inl ⟨by simp, rfl⟩
  rcases hstat : h.stat j.path with ⟨_ | e, h'⟩
  all_goals have hvol := Host.volume_of_stat hstat
  · exact Or.inl ⟨by simp, hvol⟩
  -- reading and printing do not change the host, so only the last step is left
  rcases hread : h'.read j.path with _ | src
  · exact Or.inl ⟨by simp [hread], by simpa [hread] using hvol⟩
  rcases hreport : j.report h' j.path src (j.rules.format src) with _ | out
  · exact Or.inl ⟨by simp [hread, hreport], by simpa [hread, hreport] using hvol⟩
  · simp only [hread, hreport]
    rw [← hvol]
    exact (j.writeBack_settles h' _ _ _).imp fun v' hwritten =>
      ⟨hsource, src, Host.read_eq_ok hread, hwritten⟩

theorem runInput_settles (j : Job) (h : Host) :
    (j.runInput h).Settles h.volume fun v' => v' = h.volume := by
  unfold runInput
  rcases h.readInput with _ | src
  · exact Or.inl ⟨by simp, rfl⟩
  · rcases hreport : j.report h inputName src (j.rules.format src) with _ | out
    · exact Or.inl ⟨by simp [hreport], by simp [hreport]⟩
    · exact Or.inr ⟨by simp [hreport], by simp [hreport]⟩

theorem run_settles (j : Job) (h : Host) :
    (j.run h).Settles h.volume fun v' =>
      (Path.isStandardInput j.path = true ∧ v' = h.volume) ∨ j.Effect h.volume v' := by
  unfold run
  rcases hinput : Path.isStandardInput j.path with _ | _
  · rcases hstat : h.stat j.path with ⟨_ | e, h'⟩
    all_goals have hvol := Host.volume_of_stat hstat
    · exact Or.inl ⟨by simp, hvol⟩
    · rcases hdir : e.isDirectory with _ | _
      · simp only [hdir]
        rw [← hvol]
        exact (j.runFile_settles h').imp fun _ => Or.inr
      · exact Or.inl ⟨by simp [hdir], by simpa [hdir] using hvol⟩
  · exact (j.runInput_settles h).imp fun _ hsame => Or.inl ⟨rfl, hsame⟩

namespace Effect

variable {j : Job} {v v' : Volume}

theorem eq_or_setContent (h : j.Effect v v') : v' = v ∨ ∃ name out, v' = v.setContent name out := by
  obtain ⟨src, -, hwritten⟩ := h.written
  unfold WritesBack at hwritten
  split_ifs at hwritten
  · obtain ⟨name, -, -, hset⟩ := Volume.write_eq_ok hwritten
    exact Or.inr ⟨name, _, hset⟩
  · exact Or.inl hwritten

/-- The effect on a memory volume, name by name. A text that does not change is not written, which
is no different from writing it. -/
theorem find?_eq (h : j.Effect v v') (hv : v.kind = .memory) (name : Text) :
    v'.find? name =
      if j.inPlace = true ∧ name = Volume.memoryName j.path then
        (v.find? name).map fun e => e.withContent (j.rules.format e.content).out
      else v.find? name := by
  obtain ⟨src, hread, hwritten⟩ := h.written
  have hcontent : ∀ e ∈ v.find? (Volume.memoryName j.path), e.content = src :=
    fun e he => Volume.content_of_read hv hread he
  unfold WritesBack at hwritten
  rcases hplace : j.inPlace with _ | _
  · have hsame : v' = v := by simpa [hplace] using hwritten
    simp [hsame]
  suffices hset : v'.find? name =
      (v.setContent (Volume.memoryName j.path) (j.rules.format src).out).find? name by
    rw [hset, Volume.find?_setContent]
    by_cases hname : name = Volume.memoryName j.path
    · rw [if_pos hname, if_pos ⟨rfl, hname⟩, hname]
      apply Option.map_congr
      intro e he
      rw [hcontent e he]
    · rw [if_neg hname, if_neg (fun hand => hname hand.2)]
  rcases hchanged : (j.rules.format src).changed with _ | _
  · have hsame : v' = v := by simpa [hplace, hchanged] using hwritten
    have hout : (j.rules.format src).out = src := by
      rw [Rules.format_eq] at hchanged
      simpa using hchanged
    rw [hsame, hout, Volume.find?_setContent_self hcontent]
  · have hwrite : v.write j.path (j.rules.format src).out = .ok v' := by
      simpa [hplace, hchanged] using hwritten
    rw [Volume.write_memory hv hwrite]

end Effect

end Job

/-! ## Steps over one volume -/

/-- A job with its own standard input and its own faults. A direct step goes to the file without
asking whether the path is a directory or stands for standard input. -/
structure Step where
  job : Job
  direct : Bool
  input : Text
  faults : Faults
  deriving DecidableEq, Repr

namespace Step

/-- Take the step on a volume. -/
def run (s : Step) (v : Volume) : Outcome :=
  let h := Host.start v s.input s.faults
  if s.direct then s.job.runFile h else s.job.run h

/-- The volume after several steps. -/
def runAll (v : Volume) (steps : List Step) : Volume :=
  steps.foldl (fun v s => (s.run v).host.volume) v

theorem run_settles (s : Step) (v : Volume) :
    (s.run v).Settles v fun v' =>
      (Path.isStandardInput s.job.path = true ∧ v' = v) ∨ s.job.Effect v v' := by
  unfold run
  rcases s.direct with _ | _
  · exact s.job.run_settles (Host.start v s.input s.faults)
  · exact (s.job.runFile_settles (Host.start v s.input s.faults)).imp fun _ => Or.inr

/-- What a step can do to the volume: nothing, or put other content under one name. -/
theorem volume_run (s : Step) (v : Volume) :
    (s.run v).host.volume = v ∨ ∃ name out, (s.run v).host.volume = v.setContent name out := by
  rcases s.run_settles v with ⟨-, hsame⟩ | ⟨-, ⟨-, hsame⟩ | heffect⟩
  · exact Or.inl hsame
  · exact Or.inl hsame
  · exact heffect.eq_or_setContent

/-- What no change of content touches is the same after any number of steps. -/
theorem runAll_keeps {α : Type} (f : Volume → α)
    (hf : ∀ v name out, f (v.setContent name out) = f v) (v : Volume) (steps : List Step) :
    f (runAll v steps) = f v := by
  induction steps generalizing v with
  | nil => rfl
  | cons s steps ih =>
    refine (ih (s.run v).host.volume).trans ?_
    rcases s.volume_run v with hsame | ⟨name, out, hset⟩
    · rw [hsame]
    · rw [hset, hf]

theorem runAll_concat (v : Volume) (steps : List Step) (s : Step) :
    runAll v (steps ++ [s]) = (s.run (runAll v steps)).host.volume := by
  simp [runAll]

section Memory

variable {s : Step} {v : Volume} (hv : v.kind = .memory) {name content : Text} {mode : Nat}

include hv

/-- A name whose entry changes holds a source file, the one at the path of the job. -/
theorem formatted_of_find?_run_ne (h : (s.run v).host.volume.find? name ≠ v.find? name) :
    (s.job.inPlace = true ∧ Path.isSource s.job.path s.job.extensions = true ∧
      name = Volume.memoryName s.job.path) ∧
    ∃ content mode, v.find? name = some (.file content mode) ∧
      (s.run v).host.volume.find? name = some (.file (s.job.rules.format content).out mode) := by
  rcases s.run_settles v with ⟨-, hsame⟩ | ⟨-, ⟨-, hsame⟩ | heffect⟩
  · exact absurd (by rw [hsame]) h
  · exact absurd (by rw [hsame]) h
  · rw [heffect.find?_eq hv] at h ⊢
    split_ifs at h ⊢ with hname
    · refine ⟨⟨hname.1, heffect.source, hname.2⟩, ?_⟩
      rcases hfind : v.find? name with _ | ⟨content, mode⟩ | mode
      · exact absurd (by rw [hfind]; rfl) h
      · exact ⟨content, mode, rfl, rfl⟩
      · exact absurd (by rw [hfind]; rfl) h
    · exact absurd rfl h

/-- A file that is to be written back holds its formatted content. -/
theorem find?_run_of_file (hok : (s.run v).error = none) (hplace : s.job.inPlace = true)
    (hinput : Path.isStandardInput s.job.path = false)
    (hfile : v.find? (Volume.memoryName s.job.path) = some (.file content mode)) :
    (s.run v).host.volume.find? (Volume.memoryName s.job.path) =
      some (.file (s.job.rules.format content).out mode) := by
  rcases s.run_settles v with ⟨hfailed, -⟩ | ⟨-, ⟨hinput', -⟩ | heffect⟩
  · exact absurd hok hfailed
  · rw [hinput] at hinput'
    cases hinput'
  · rw [heffect.find?_eq hv, if_pos ⟨hplace, rfl⟩, hfile]
    rfl

end Memory

/-- **Steps over a memory volume.** After any steps, one more step keeps the names and the
permission bits that the first volume has. If it fails, it changes nothing. If it succeeds, it
changes at most the file at its path: only a source file, only when that is asked for, and always
to the formatted content. -/
theorem run_after_steps (v : Volume) (hv : v.kind = .memory) (steps : List Step) (s : Step) :
    let before := runAll v steps
    let o := s.run before
    let after := o.host.volume
    after.shape = v.shape ∧
    (o.error ≠ none → after = before) ∧
    (∀ name, after.find? name ≠ before.find? name →
      (s.job.inPlace = true ∧ Path.isSource s.job.path s.job.extensions = true ∧
        name = Volume.memoryName s.job.path) ∧
      ∃ content mode, before.find? name = some (.file content mode) ∧
        after.find? name = some (.file (s.job.rules.format content).out mode)) ∧
    (o.error = none → s.job.inPlace = true → Path.isStandardInput s.job.path = false →
      ∀ content mode, before.find? (Volume.memoryName s.job.path) = some (.file content mode) →
        after.find? (Volume.memoryName s.job.path) =
          some (.file (s.job.rules.format content).out mode)) := by
  intro before o after
  have hbefore : before.kind = .memory :=
    (runAll_keeps Volume.kind (fun _ _ _ => rfl) v steps).trans hv
  have hshape : after.shape = v.shape := by
    rw [← runAll_keeps Volume.shape Volume.shape_setContent v (steps ++ [s]), runAll_concat]
  have hfailed : o.error ≠ none → after = before := by
    intro herror
    rcases s.run_settles before with ⟨-, hsame⟩ | ⟨hok, -⟩
    · exact hsame
    · exact absurd hok herror
  exact ⟨hshape, hfailed, fun _ => formatted_of_find?_run_ne hbefore,
    fun hok hplace hinput _ _ => find?_run_of_file hbefore hok hplace hinput⟩

/-- The first step cannot open the file for writing. The second one can, and comes to it by another
path. -/
theorem run_after_steps_fault :
    let v : Volume := ⟨.memory, [("a.swift", .file "import B\nimport A" 0o600),
      ("b.swift", .file "import D\nimport C" 0o644)]⟩
    let job : Job := ⟨"./a.swift", [".swift"], Rules.standard, true, false, true, false⟩
    let first : Step := ⟨job, true, [], { Faults.none with write := true }⟩
    let second : Step := ⟨job, false, [], Faults.none⟩
    let after := (second.run (runAll v [first])).host.volume
    v.kind = .memory ∧ after.shape = v.shape ∧
      after.find? "a.swift" = some (.file "import A\nimport B" 0o600) := by
  intro v job first second after
  have hrun := run_after_steps v rfl [first] second
  refine ⟨rfl, hrun.1, ?_⟩
  refine (hrun.2.2.2 ?_ rfl ?_ "import B\nimport A" 0o600 ?_).trans ?_ <;> decide +kernel

end Step

end ImportBlock
