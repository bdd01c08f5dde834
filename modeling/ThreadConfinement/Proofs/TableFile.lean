import ThreadConfinement.Proofs.ChainedExport
import ThreadConfinement.Registry.Export

/-!
The table file and its lock file in a directory.

A file that a directory serves can be written, and read once it is there.
Writing the table never gets in the way of its lock file, nor the other way
round, since the two stand side by side under different names.  So all that an
export sees of a directory is the content of the table and whether the lock is
taken: `Registry.exportStep_eq` gives the steps of an export on that view alone.
-/

namespace ThreadConfinement

namespace Text

/-- What is appended to a text without a mark goes to its last part. -/
theorem splitAll_append {mark : Char} {tail : List Char} (htail : mark ∉ tail)
    (cs : List Char) :
    ∃ front last, splitAll mark cs = front ++ [last] ∧
      splitAll mark (cs ++ tail) = front ++ [last ++ tail] := by
  induction cs with
  | nil =>
      refine ⟨[], [], rfl, ?_⟩
      induction tail with
      | nil => rfl
      | cons c rest ih =>
          rw [List.mem_cons, not_or] at htail
          have hrest : splitAll mark rest = [rest] := ih htail.2
          simp [splitAll, Ne.symm htail.1, hrest]
  | cons c rest ih =>
      obtain ⟨front, last, hparts, hmore⟩ := ih
      by_cases hc : c = mark
      · exact ⟨[] :: front, last, by simp [splitAll, hc, hparts],
          by simp [splitAll, hc, hmore]⟩
      · cases front with
        | nil => exact ⟨[], c :: last, by simp [splitAll, hc, hparts],
            by simp [splitAll, hc, hmore]⟩
        | cons part front =>
            exact ⟨(c :: part) :: front, last, by simp [splitAll, hc, hparts],
              by simp [splitAll, hc, hmore]⟩

end Text

namespace FileName

/-- The lock file stands beside its table: only the last components differ. -/
theorem exists_components_lock {name : FileName}
    (hproper : name.namesDirectory = false) :
    ∃ front last, name.components = front ++ [last] ∧
      name.lock.components = front ++ [last ++ ".lock"] := by
  have htail : '/' ∉ ".lock".toList := by decide
  obtain ⟨front, last, hparts, hlock⟩ :=
    Text.splitAll_append htail name.text.toList
  have hlast : last ≠ [] ∧ last ≠ ['.'] := by
    simpa [namesDirectory, hparts] using hproper
  refine ⟨(front.map String.ofList).filter (fun s => s != "" && s != "."),
    String.ofList last, ?_, ?_⟩
  · have hdot : String.ofList last ≠ "." := by
      intro heq
      exact hlast.2 (by simpa using congrArg String.toList heq)
    simp [components, hparts, hlast.1, hdot]
  · have hlocked :
        (lock name).text.toList = name.text.toList ++ ".lock".toList := by
      simp [lock, String.toList_append]
    have hname : String.ofList (last ++ ".lock".toList) =
        String.ofList last ++ ".lock" := by
      rw [String.ofList_append, String.ofList_toList]
    have hdot : String.ofList last ++ ".lock" ≠ "." := by
      intro heq
      have hlength := congrArg (fun s => s.toList.length) heq
      simp [String.toList_append] at hlength
    rw [components, hlocked, hlock, List.map_append, List.map_singleton, hname]
    simp [hdot]

end FileName

/-- The key of a path is what leads to its last component, and then that
component. -/
theorem toList_pathKey_append (front : List String) (last : String) :
    (pathKey (front ++ [last])).toList =
      front.flatMap (fun part => part.toList ++ ['/']) ++ last.toList := by
  induction front with
  | nil => simp [pathKey]
  | cons part rest ih =>
      have hne : (rest ++ [last]).map String.toList ≠ [] := by simp
      rw [pathKey, String.toList_intercalate] at ih ⊢
      rw [List.cons_append, List.map_cons,
        List.intercalate_cons_of_ne_nil hne, ih]
      simp

theorem pathKey_append_inj {front : List String} {x y : String}
    (hkey : pathKey (front ++ [x]) = pathKey (front ++ [y])) : x = y := by
  have hlist := congrArg String.toList hkey
  rw [toList_pathKey_append, toList_pathKey_append] at hlist
  exact String.ext (List.append_cancel_left hlist)

/-- A directory on the way to a path has a shorter key. -/
theorem pathKey_ne_of_way {front above : List String} (hne : above ≠ [])
    (hway : above <+: front) (last : String) :
    pathKey above ≠ pathKey (front ++ [last]) := by
  obtain ⟨rest, rfl⟩ := hway
  obtain ⟨outer, inner, rfl⟩ : ∃ outer inner, above = outer ++ [inner] :=
    ⟨above.dropLast, above.getLast hne, (List.dropLast_concat_getLast hne).symm⟩
  intro hkey
  have hlength := congrArg (fun s => s.toList.length) hkey
  simp only [toList_pathKey_append, List.flatMap_append,
    List.length_append] at hlength
  simp only [List.flatMap_cons, List.flatMap_nil, List.append_nil,
    List.length_append, List.length_singleton] at hlength
  omega

namespace Directory

def put (d : Directory) (components : List String) (node : Node) : Directory :=
  { d with nodes := d.nodes.insert (pathKey components) node }

theorem node?_put_self (d : Directory) (front : List String) (last : String)
    (node : Node) :
    (d.put (front ++ [last]) node).node? (front ++ [last]) = some node := by
  simp [node?, put]

theorem node?_put_of_ne (d : Directory) {components other : List String}
    (hkey : other ≠ [] → pathKey other ≠ pathKey components) (node : Node) :
    (d.put components node).node? other = d.node? other := by
  unfold node?
  split
  · rfl
  · next hother =>
      have hne : ¬ compare (pathKey components) (pathKey other) = .eq := by
        intro hsame
        exact hkey (by simpa using hother)
          (Std.LawfulEqCmp.eq_of_compare hsame).symm
      simp only [put, Std.ExtTreeMap.getElem?_insert, if_neg hne]

/-- Whether a path can be reached depends on what stands above it only. -/
theorem wayFault?_congr {d other : Directory} {front : List String}
    (habove : ∀ above, above <+: front → other.node? above = d.node? above)
    (last : String) :
    other.wayFault? (front ++ [last]) = d.wayFault? (front ++ [last]) := by
  have hways : ∀ way ∈ ways (front ++ [last]), way.1 <+: front := by
    intro way hway
    obtain ⟨i, hi, rfl⟩ := List.mem_mapIdx.mp hway
    have hle : i ≤ front.length := by
      rw [List.length_append, List.length_singleton] at hi
      omega
    show (front ++ [last]).take i <+: front
    rw [List.take_append_of_le_length hle]
    exact List.take_prefix i front
  unfold wayFault?
  generalize ways (front ++ [last]) = steps at hways
  induction steps with
  | nil => rfl
  | cons way rest ih =>
      obtain ⟨above, part⟩ := way
      have hhead := habove above (hways _ List.mem_cons_self)
      have hrest :=
        ih (fun other hother => hways other (List.mem_cons_of_mem _ hother))
      simp only [List.findSome?_cons, hhead, hrest]

/-- The file can be written, and read once it is there. -/
structure Serves (d : Directory) (name : FileName) : Prop where
  fault : d.fault? name = none
  proper : name.namesDirectory = false
  file : ∀ node, d.node? name.components = some node →
    ∃ content, node = .file content

def content? (d : Directory) (name : FileName) : Option ByteArray :=
  (d.read name).toOption

variable {d : Directory} {name : FileName}

theorem Serves.read_eq (hd : d.Serves name) :
    d.read name = match d.node? name.components with
      | some (.file bytes) => .ok bytes
      | _ => .error .notFound := by
  have hproper := hd.proper
  unfold Directory.read
  rw [hd.fault]
  cases hnode : d.node? name.components with
  | none => rfl
  | some node =>
      obtain ⟨bytes, rfl⟩ := hd.file node hnode
      simp [hproper]

theorem Serves.content?_eq (hd : d.Serves name) :
    d.content? name = match d.node? name.components with
      | some (.file bytes) => some bytes
      | _ => none := by
  rw [content?, hd.read_eq]
  split
  · rfl
  · rfl

/-- A file that is served is read, unless it is not there. -/
theorem Serves.read (hd : d.Serves name) :
    d.read name = match d.content? name with
      | some bytes => .ok bytes
      | none => .error .notFound := by
  rw [hd.content?_eq, hd.read_eq]
  split
  · rfl
  · rfl

/-- A file that is served can be changed. -/
theorem Serves.update (hd : d.Serves name)
    (change : Option ByteArray → ByteArray) :
    d.update name change =
      .ok (d.put name.components (.file (change (d.content? name)))) := by
  have hproper := hd.proper
  rw [hd.content?_eq]
  unfold Directory.update
  rw [hd.fault]
  cases hnode : d.node? name.components with
  | none => simp [hproper, put]
  | some node =>
      obtain ⟨bytes, rfl⟩ := hd.file node hnode
      simp [hproper, put]

/-- A file that can be changed is served. -/
theorem serves_of_update {change : Option ByteArray → ByteArray}
    {after : Directory} (hupdate : d.update name change = .ok after) :
    d.Serves name := by
  unfold Directory.update at hupdate
  cases hfault : d.fault? name with
  | some fault => simp [hfault] at hupdate
  | none =>
      have hproper : name.namesDirectory = false := by
        cases hproper : name.namesDirectory with
        | false => rfl
        | true =>
            rw [hfault] at hupdate
            cases hnode : d.node? name.components with
            | none => simp [hnode, hproper] at hupdate
            | some node => cases node <;> simp [hnode, hproper] at hupdate
      refine ⟨hfault, hproper, ?_⟩
      intro node hnode
      cases node with
      | file content => exact ⟨content, rfl⟩
      | directory => simp [hfault, hnode] at hupdate

/-- A file put beside another one, or in its place, does not get in the way of
reaching it. -/
theorem Serves.put_beside (hd : d.Serves name) {front : List String}
    {last : String} (hname : name.components = front ++ [last])
    (beside : String) (bytes : ByteArray) :
    (d.put (front ++ [beside]) (.file bytes)).Serves name ∧
      (d.put (front ++ [beside]) (.file bytes)).content? name =
        if beside = last then some bytes else d.content? name := by
  have hfault :
      (d.put (front ++ [beside]) (.file bytes)).fault? name = none := by
    have habove : ∀ above, above <+: front →
        (d.put (front ++ [beside]) (.file bytes)).node? above = d.node? above :=
      fun above hprefix =>
      d.node?_put_of_ne (fun hne => pathKey_ne_of_way hne hprefix beside) _
    rw [fault?, hname, wayFault?_congr habove, ← hname]
    exact hd.fault
  by_cases hsame : beside = last
  · have hnode := d.node?_put_self front beside (.file bytes)
    rw [hsame, ← hname] at hnode
    rw [hsame, ← hname] at hfault ⊢
    have hserves : (d.put name.components (.file bytes)).Serves name := by
      refine ⟨hfault, hd.proper, ?_⟩
      intro node hsome
      rw [hnode] at hsome
      exact ⟨bytes, (Option.some.inj hsome).symm⟩
    refine ⟨hserves, ?_⟩
    rw [hserves.content?_eq, hnode, if_pos rfl]
  · have hnode :
        (d.put (front ++ [beside]) (.file bytes)).node? name.components =
          d.node? name.components := by
      rw [hname]
      exact d.node?_put_of_ne
        (fun _ hkey => hsame (pathKey_append_inj hkey).symm) _
    have hserves : (d.put (front ++ [beside]) (.file bytes)).Serves name := by
      refine ⟨hfault, hd.proper, ?_⟩
      rw [hnode]
      exact hd.file
    refine ⟨hserves, ?_⟩
    rw [hserves.content?_eq, hnode, ← hd.content?_eq, if_neg hsame]

@[simp] theorem isLocked_acquire (d : Directory) (name : FileName) :
    (d.acquire name).isLocked name = true := by
  simp [acquire, isLocked]

@[simp] theorem isLocked_release (d : Directory) (name : FileName) :
    (d.release name).isLocked name = false := by
  simp [release, isLocked]

/-- Both the table and its lock file are served. -/
structure Ready (d : Directory) (path : FileName) : Prop where
  table : d.Serves path
  lock : d.Serves path.lock

variable {path : FileName}

/-- Locks do not count for what is served. -/
theorem Ready.of_nodes (hd : d.Ready path) (other : Directory)
    (hnodes : other.nodes = d.nodes) :
    other.Ready path ∧ other.content? path = d.content? path := by
  obtain ⟨nodes, locked⟩ := d
  obtain ⟨others, otherLocked⟩ := other
  obtain rfl : others = nodes := hnodes
  exact ⟨⟨⟨hd.table.fault, hd.table.proper, hd.table.file⟩,
    ⟨hd.lock.fault, hd.lock.proper, hd.lock.file⟩⟩, rfl⟩

/-- Opening the lock file leaves the table alone. -/
theorem Ready.touch (hd : d.Ready path) :
    ∃ after, d.touch path.lock = .ok after ∧ after.Ready path ∧
      after.content? path = d.content? path ∧
      after.isLocked path.lock = d.isLocked path.lock := by
  obtain ⟨front, last, htable, hlock⟩ :=
    path.exists_components_lock hd.table.proper
  have hne : last ++ ".lock" ≠ last := by
    intro heq
    have hlength := congrArg (fun s => s.toList.length) heq
    simp [String.toList_append] at hlength
  refine ⟨_, hd.lock.update _, ?_⟩
  rw [hlock]
  obtain ⟨hserves, hcontent⟩ := hd.table.put_beside htable (last ++ ".lock")
    ((d.content? path.lock).getD ByteArray.empty)
  rw [if_neg hne] at hcontent
  exact ⟨⟨hserves, (hd.lock.put_beside hlock _ _).1⟩, hcontent, rfl⟩

/-- Writing the table leaves its lock file alone. -/
theorem Ready.write (hd : d.Ready path) (bytes : ByteArray) :
    ∃ after, d.write path bytes = .ok after ∧ after.Ready path ∧
      after.content? path = some bytes ∧
      after.isLocked path.lock = d.isLocked path.lock := by
  obtain ⟨front, last, htable, hlock⟩ :=
    path.exists_components_lock hd.table.proper
  refine ⟨_, hd.table.update _, ?_⟩
  rw [htable]
  obtain ⟨hserves, hcontent⟩ := hd.table.put_beside htable last bytes
  rw [if_pos rfl] at hcontent
  exact ⟨⟨hserves, (hd.lock.put_beside hlock _ _).1⟩, hcontent, rfl⟩

end Directory

/-- What an export sees of a directory. -/
structure TableView where
  content : Option ByteArray
  locked : Bool

def Directory.tableView (d : Directory) (path : FileName) : TableView :=
  ⟨d.content? path, d.isLocked path.lock⟩

namespace Registry

/-- One step of an export on what it sees. -/
def viewStep (r : Registry) (path : FileName) :
    ExportPhase × TableView → ExportPhase × TableView
  | (.waiting, v) => (.opened, v)
  | (.opened, v) =>
    if v.locked then (.done (.error (.locked path.text)), v)
    else (.holding, { v with locked := true })
  | (.holding, v) => (.loaded v.content, v)
  | (.loaded prior, v) =>
    match Table.ofPrior prior with
    | .error fault => (.stored (.error (.table fault)), v)
    | .ok t =>
      let text := (r.overwrite t).render
      (.stored (.ok ⟨path, lineFeeds text, r.preserved t⟩),
        { v with content := some text.toUTF8 })
  | (.stored result, v) => (.done result, { v with locked := false })
  | (.done result, v) => (.done result, v)

/-- Where table and lock file are served, they stay so, and a step goes by what
it sees. -/
theorem exportStep_eq (r : Registry) {path : FileName} {d : Directory}
    (hd : d.Ready path) (phase : ExportPhase) :
    (r.exportStep path (phase, d)).2.Ready path ∧
      ((r.exportStep path (phase, d)).1,
        (r.exportStep path (phase, d)).2.tableView path) =
        r.viewStep path (phase, d.tableView path) := by
  cases phase with
  | waiting =>
      obtain ⟨after, htouch, hready, hcontent, hlocked⟩ := hd.touch
      simp [exportStep, viewStep, htouch, hready, Directory.tableView,
        hcontent, hlocked]
  | opened =>
      cases hlocked : d.isLocked path.lock with
      | true => simp [exportStep, viewStep, hlocked, hd, Directory.tableView]
      | false =>
          obtain ⟨hready, hcontent⟩ := hd.of_nodes (d.acquire path.lock) rfl
          simp [exportStep, viewStep, hlocked, hready,
            Directory.tableView, hcontent]
  | holding =>
      have hread := hd.table.read
      cases hcontent : d.content? path with
      | none =>
          rw [hcontent] at hread
          simp [exportStep, viewStep, hread, hd, Directory.tableView, hcontent]
      | some bytes =>
          rw [hcontent] at hread
          simp [exportStep, viewStep, hread, hd, Directory.tableView, hcontent]
  | loaded prior =>
      cases hprior : Table.ofPrior prior with
      | error fault => simp [exportStep, viewStep, store, hprior, hd]
      | ok t =>
          obtain ⟨after, hwrite, hready, hcontent, hlocked⟩ :=
            hd.write (r.overwrite t).render.toUTF8
          simp only [exportStep, viewStep, store, hprior, hwrite,
            Directory.tableView, hcontent, hlocked]
          exact ⟨hready, trivial⟩
  | stored result =>
      obtain ⟨hready, hcontent⟩ := hd.of_nodes (d.release path.lock) rfl
      simp [exportStep, viewStep, hready, Directory.tableView, hcontent]
  | done result => exact ⟨hd, rfl⟩

def viewSteps (r : Registry) (path : FileName) :
    Nat → ExportPhase × TableView → ExportPhase × TableView
  | 0, s => s
  | n + 1, s => viewSteps r path n (r.viewStep path s)

theorem exportSteps_eq (r : Registry) {path : FileName} (n : Nat)
    {d : Directory} (hd : d.Ready path) (phase : ExportPhase) :
    (r.exportSteps path n (phase, d)).2.Ready path ∧
      ((r.exportSteps path n (phase, d)).1,
        (r.exportSteps path n (phase, d)).2.tableView path) =
        r.viewSteps path n (phase, d.tableView path) := by
  induction n generalizing d phase with
  | zero => exact ⟨hd, rfl⟩
  | succ n ih =>
      obtain ⟨hready, hview⟩ := r.exportStep_eq hd phase
      obtain ⟨hlast, hrest⟩ := ih hready (r.exportStep path (phase, d)).1
      rw [hview] at hrest
      exact ⟨hlast, hrest⟩

/-- The content of the table after an export: the merged table, or what was
there when that cannot be read. -/
def rewrite (r : Registry) (prior : Option ByteArray) : Option ByteArray :=
  match r.exportText prior with
  | .ok text => some text.toUTF8
  | .error _ => prior

/-- An export with no other writer in between rewrites the table and leaves the
lock free. -/
theorem tableView_exportToFile (r : Registry) {path : FileName} {d : Directory}
    (hd : d.Ready path) (hfree : d.isLocked path.lock = false) :
    (r.exportToFile path d).2.Ready path ∧
      (r.exportToFile path d).2.tableView path =
        ⟨r.rewrite (d.content? path), false⟩ := by
  obtain ⟨hready, hview⟩ := r.exportSteps_eq 5 hd .waiting
  refine ⟨hready, (congrArg Prod.snd hview).trans ?_⟩
  cases hprior : Table.ofPrior (d.content? path) with
  | error fault =>
      simp [viewSteps, viewStep, Directory.tableView, hfree, hprior, rewrite,
        exportText, Except.map]
  | ok t =>
      simp [viewSteps, viewStep, Directory.tableView, hfree, hprior, rewrite,
        exportText, Except.map]

end Registry

end ThreadConfinement
