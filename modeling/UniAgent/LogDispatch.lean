-- The log files of the runs: any number of threads register log ids and submit lines to a queue,
-- and one writer owns the files. A lock section, a put and an item of the writer are each a step.
import Mathlib.Data.List.Induction
import Mathlib.Data.List.Nodup
import Mathlib.Data.List.Perm.Basic
import Mathlib.Logic.Function.Basic

namespace uni_agent.logging

/-! ## The writer -/

/-- An emission under its log id. The number tells emissions of one text apart. -/
structure Record where
  logId : String
  emission : Nat
  deriving DecidableEq, Repr

inductive Item where
  | openFile (logId path : String)
  | closeFile (logId : String)
  | writeLine (record : Record) (line : String)
  deriving DecidableEq, Repr

/-- A line in a file. -/
structure Line where
  path : String
  record : Record
  line : String
  deriving DecidableEq, Repr

def Line.item (l : Line) : Item := .writeLine l.record l.line

def Item.record? : Item → Option Record
  | .writeLine record _ => some record
  | _ => none

/-- The open file of each log id, and every line of all the files, in the order of writing. -/
structure Writer where
  files : String → Option String
  written : List Line

namespace Writer

def init : Writer := ⟨fun _ => none, []⟩

/-- `_apply`. An `open` takes the place of an open file. -/
def apply (w : Writer) : Item → Writer
  | .openFile logId path => { w with files := Function.update w.files logId (some path) }
  | .closeFile logId => { w with files := Function.update w.files logId none }
  | .writeLine record line =>
    match w.files record.logId with
    | some path => { w with written := w.written ++ [⟨path, record, line⟩] }
    | none => w

def applyAll (w : Writer) (items : List Item) : Writer := items.foldl apply w

end Writer

namespace Writer

variable {items : List Item} {w : Writer} {item : Item} {l : Line} {logId path : String}

theorem applyAll_append (w : Writer) (first second : List Item) :
    w.applyAll (first ++ second) = (w.applyAll first).applyAll second :=
  List.foldl_append

/-- What an item adds to the files. -/
theorem written_apply (w : Writer) (item : Item) :
    (w.apply item).written = w.written ∨
      ∃ l, (w.apply item).written = w.written ++ [l] ∧ l.item = item ∧
        w.files l.record.logId = some l.path := by
  cases item with
  | openFile logId path => exact .inl rfl
  | closeFile logId => exact .inl rfl
  | writeLine record line =>
    rw [apply]
    cases hfile : w.files record.logId with
    | none => exact .inl rfl
    | some path => exact .inr ⟨⟨path, record, line⟩, rfl, rfl, hfile⟩

theorem written_prefix (w : Writer) (items : List Item) :
    w.written <+: (w.applyAll items).written := by
  induction items generalizing w with
  | nil => exact List.prefix_rfl
  | cons item items ih =>
    refine List.IsPrefix.trans ?_ (ih (w.apply item))
    rcases written_apply w item with h | ⟨l, h, -⟩
    · exact ⟨[], by rw [List.append_nil, h]⟩
    · rw [h]
      exact List.prefix_append _ _

/-- Each line is written for one of the items, in their order. -/
theorem written_sublist (items : List Item) :
    ((init.applyAll items).written.map Line.item).Sublist items := by
  induction items using List.reverseRecOn with
  | nil => exact List.Sublist.slnil
  | append_singleton items item ih =>
    rw [applyAll_append]
    rcases written_apply (init.applyAll items) item with h | ⟨l, h, hitem, -⟩
    · show (((init.applyAll items).apply item).written.map Line.item).Sublist (items ++ [item])
      rw [h]
      exact ih.trans (List.sublist_append_left _ _)
    · show (((init.applyAll items).apply item).written.map Line.item).Sublist (items ++ [item])
      rw [h, List.map_append, List.map_singleton, hitem]
      exact ih.append (List.Sublist.refl _)

/-- A file is open for an id under a path that an item gave it. -/
theorem openFile_mem (h : (init.applyAll items).files logId = some path) :
    .openFile logId path ∈ items := by
  induction items using List.reverseRecOn with
  | nil => cases h
  | append_singleton items item ih =>
    rw [applyAll_append] at h
    rw [List.mem_append]
    cases item with
    | openFile other otherPath =>
      have hfile : Function.update (init.applyAll items).files other (some otherPath) logId =
          some path := h
      by_cases hsame : logId = other
      · subst hsame
        rw [Function.update_self] at hfile
        obtain rfl := Option.some.inj hfile
        exact .inr (List.mem_singleton_self _)
      · rw [Function.update_of_ne hsame] at hfile
        exact .inl (ih hfile)
    | closeFile other =>
      have hfile : Function.update (init.applyAll items).files other none logId = some path := h
      by_cases hsame : logId = other
      · subst hsame
        rw [Function.update_self] at hfile
        cases hfile
      · rw [Function.update_of_ne hsame] at hfile
        exact .inl (ih hfile)
    | writeLine record line =>
      left
      apply ih
      have hfile : ((init.applyAll items).apply (.writeLine record line)).files logId =
          some path := h
      rw [apply] at hfile
      split at hfile <;> exact hfile

theorem openFile_mem_of_written (h : l ∈ (init.applyAll items).written) :
    .openFile l.record.logId l.path ∈ items := by
  induction items using List.reverseRecOn with
  | nil => cases h
  | append_singleton items item ih =>
    rw [applyAll_append] at h
    have hwritten : l ∈ ((init.applyAll items).apply item).written := h
    rw [List.mem_append]
    left
    rcases written_apply (init.applyAll items) item with hsame | ⟨l', hmore, -, hfile⟩
    · rw [hsame] at hwritten
      exact ih hwritten
    · rw [hmore, List.mem_append, List.mem_singleton] at hwritten
      rcases hwritten with hold | rfl
      · exact ih hold
      · exact openFile_mem hfile

/-- A line finds its file open or is lost. -/
theorem written_writeLine (w : Writer) (record : Record) (line : String) :
    (w.files record.logId ≠ none ∧
        ∃ path, (w.apply (.writeLine record line)).written = w.written ++ [⟨path, record, line⟩]) ∨
      (w.files record.logId = none ∧ w.apply (.writeLine record line) = w) := by
  rw [apply]
  cases hfile : w.files record.logId with
  | none => exact .inr ⟨rfl, rfl⟩
  | some path => exact .inl ⟨nofun, path, rfl⟩

end Writer

/-! ## The threads -/

/-- The fields of the dispatch, and the calls in flight: what they have still to put, and what
found the queue full and has still to be counted. Then what has happened: the ids that were
registered with their paths, the number of emissions, those that found their id registered, what
the queue took, and what was counted. -/
structure LogFileDispatch where
  logIds : List String
  queue : List Item
  writer : Writer
  dropped : Nat
  puts : List Item
  counts : List Item
  registered : List (String × String)
  emissions : Nat
  found : List Record
  submitted : List Item
  counted : List Item

/-- A lock section of `register`, `unregister` or `emit`, with the line that the formatter makes
unless it raises; a `put_nowait`, full or not in any pattern; a lock section that counts; and an
item of the writer. -/
inductive Step where
  | register (logId path : String)
  | unregister (logId : String)
  | emit (logId : String) (line : Option String)
  | put (call : Nat) (full : Bool)
  | count (call : Nat)
  | write

namespace LogFileDispatch

def init : LogFileDispatch := ⟨[], [], .init, 0, [], [], [], 0, [], [], []⟩

def step (s : LogFileDispatch) : Step → LogFileDispatch
  | .register logId path =>
    { s with
      logIds := if logId ∈ s.logIds then s.logIds else s.logIds ++ [logId]
      puts := s.puts ++ [.openFile logId path]
      registered := s.registered ++ [(logId, path)] }
  | .unregister logId =>
    { s with
      logIds := s.logIds.filter (fun other => other != logId)
      puts := s.puts ++ [.closeFile logId] }
  | .emit logId line =>
    if logId ∈ s.logIds then
      let record : Record := ⟨logId, s.emissions⟩
      { s with
        emissions := s.emissions + 1
        found := s.found ++ [record]
        puts := s.puts ++ (line.map (Item.writeLine record)).toList }
    else s
  | .put call full =>
    match s.puts[call]? with
    | none => s
    | some item =>
      if full then { s with puts := s.puts.eraseIdx call, counts := s.counts ++ [item] }
      else
        { s with
          puts := s.puts.eraseIdx call
          queue := s.queue ++ [item]
          submitted := s.submitted ++ [item] }
  | .count call =>
    match s.counts[call]? with
    | none => s
    | some item =>
      { s with
        counts := s.counts.eraseIdx call
        dropped := s.dropped + 1
        counted := s.counted ++ [item] }
  | .write =>
    match s.queue with
    | [] => s
    | item :: queue => { s with queue, writer := s.writer.apply item }

/-- The writer takes every item of the queue. -/
def drained (s : LogFileDispatch) : LogFileDispatch :=
  { s with queue := [], writer := s.writer.applyAll s.queue }

theorem drained_eq_foldl (s : LogFileDispatch) :
    s.drained = (List.replicate s.queue.length Step.write).foldl step s := by
  obtain ⟨logIds, queue, writer, dropped, puts, counts, registered, emissions, found, submitted,
    counted⟩ := s
  induction queue generalizing writer with
  | nil => rfl
  | cons item queue ih => exact ih (writer.apply item)

/-! ## What is asked of a run -/

/-- The call of an emission has returned. -/
def IsDone (s : LogFileDispatch) (record : Record) : Prop :=
  ∀ item ∈ s.puts ++ s.counts, item.record? ≠ some record

instance (s : LogFileDispatch) (record : Record) : Decidable (s.IsDone record) := by
  unfold IsDone
  infer_instance

/-- No line is in a wrong file, twice or out of order, and with an empty queue each record that
found its id registered is written or counted. -/
structure Accounted (s : LogFileDispatch) : Prop where
  routed : ∀ l ∈ s.writer.written, (l.record.logId, l.path) ∈ s.registered ∧ l.record ∈ s.found
  once : (s.writer.written.map (fun l => l.record.emission)).Nodup
  ordered : (s.writer.written.map Line.item).Sublist s.submitted
  accounted : s.queue = [] → ∀ record ∈ s.found, s.IsDone record →
    (∃ l ∈ s.writer.written, l.record = record) ∨
      (∃ item ∈ s.counted, item.record? = some record)
  dropped_eq : s.dropped = s.counted.length

/-- Every state of a run, as it is and once its queue is drained. -/
def Keeps : LogFileDispatch → List Step → Prop
  | s, [] => s.Accounted ∧ s.drained.Accounted
  | s, label :: labels => (s.Accounted ∧ s.drained.Accounted) ∧ Keeps (s.step label) labels

/-- The file of a log id is open once the writer has taken what is in the queue. -/
def WillBeOpen (s : LogFileDispatch) (logId : String) : Prop :=
  (s.writer.applyAll s.queue).files logId ≠ none

/-- A line is formatted, and finds its file open. -/
def IsKept (s : LogFileDispatch) : Step → Prop
  | .emit logId line => logId ∈ s.logIds → line ≠ none
  | .put call false => ∀ record line, s.puts[call]? = some (.writeLine record line) →
    s.WillBeOpen record.logId
  | _ => True

def AllKept : LogFileDispatch → List Step → Prop
  | _, [] => True
  | s, label :: labels => s.IsKept label ∧ AllKept (s.step label) labels

/-! ## Nothing is invented -/

variable {s : LogFileDispatch} {item : Item} {record : Record}

/-- Everything that was made of the calls so far. -/
def items (s : LogFileDispatch) : List Item := s.puts ++ (s.counts ++ (s.submitted ++ s.counted))

def emissionOf (item : Item) : Option Nat := item.record?.map Record.emission

/-- An item is of a call that was made. -/
def IsMade (s : LogFileDispatch) : Item → Prop
  | .openFile logId path => (logId, path) ∈ s.registered
  | .closeFile _ => True
  | .writeLine record _ => record ∈ s.found

structure Sound (s : LogFileDispatch) : Prop where
  played : s.writer.applyAll s.queue = Writer.init.applyAll s.submitted
  made : ∀ item ∈ s.items, s.IsMade item
  bounded : ∀ record ∈ s.found, record.emission < s.emissions
  once : (s.items.filterMap emissionOf).Nodup
  dropped_eq : s.dropped = s.counted.length

theorem sound_init : Sound init := ⟨rfl, nofun, nofun, List.nodup_nil, rfl⟩

theorem emission_lt (h : s.Sound) {n : Nat} (hn : n ∈ s.items.filterMap emissionOf) :
    n < s.emissions := by
  obtain ⟨item, hitem, hemission⟩ := List.mem_filterMap.mp hn
  cases item with
  | openFile logId path => cases hemission
  | closeFile logId => cases hemission
  | writeLine record line =>
    obtain rfl := Option.some.inj hemission
    exact h.bounded record (h.made _ hitem)

theorem IsMade.mono {t : LogFileDispatch} (h : s.IsMade item)
    (hregistered : s.registered ⊆ t.registered) (hfound : s.found ⊆ t.found) : t.IsMade item := by
  cases item with
  | openFile logId path => exact hregistered h
  | closeFile logId => trivial
  | writeLine record line => exact hfound h

/-- The items are moved to other places, and there are new ones. -/
theorem sound_of_perm {t : LogFileDispatch} (h : s.Sound) {new : List Item}
    (hitems : t.items.Perm (new ++ s.items)) (hmade : ∀ item ∈ new, t.IsMade item)
    (hregistered : s.registered ⊆ t.registered) (hfound : s.found ⊆ t.found)
    (hbounded : ∀ record ∈ t.found, record.emission < t.emissions)
    (honce : (new.filterMap emissionOf).Nodup)
    (hfresh : ∀ n ∈ new.filterMap emissionOf, s.emissions ≤ n)
    (hplayed : t.writer.applyAll t.queue = Writer.init.applyAll t.submitted)
    (hdropped : t.dropped = t.counted.length) : t.Sound := by
  refine ⟨hplayed, ?_, hbounded, ?_, hdropped⟩
  · intro item hitem
    rcases List.mem_append.mp (hitems.mem_iff.mp hitem) with hnew | hold
    · exact hmade item hnew
    · exact (h.made item hold).mono hregistered hfound
  · rw [(hitems.filterMap emissionOf).nodup_iff, List.filterMap_append]
    refine List.Nodup.append honce h.once ?_
    intro n hnew hold
    have hle := hfresh n hnew
    have hlt := emission_lt h hold
    omega

theorem eraseIdx_perm {source : List Item} {call : Nat} (h : source[call]? = some item) :
    (item :: source.eraseIdx call).Perm source := by
  obtain ⟨hlt, rfl⟩ := List.getElem?_eq_some_iff.mp h
  exact List.getElem_cons_eraseIdx_perm hlt

/-- An item goes from one list to the end of another one. -/
theorem move_perm {source target rest : List Item} {call : Nat} (h : source[call]? = some item) :
    (source.eraseIdx call ++ (target ++ item :: rest)).Perm (source ++ (target ++ rest)) := by
  rw [← List.append_assoc]
  refine List.perm_middle.trans ?_
  rw [List.append_assoc, ← List.cons_append]
  exact (eraseIdx_perm h).append_right _

theorem subset_new {new puts rest : List Item} : puts ++ rest ⊆ puts ++ new ++ rest := by
  intro item hitem
  rcases List.mem_append.mp hitem with hput | hrest
  · exact List.mem_append_left _ (List.mem_append_left _ hput)
  · exact List.mem_append_right _ hrest

theorem new_perm {new puts rest : List Item} :
    (puts ++ new ++ rest).Perm (new ++ (puts ++ rest)) := by
  rw [← List.append_assoc]
  exact List.perm_append_comm.append_right rest

/-- The ways of a step. -/
inductive Moves (s : LogFileDispatch) : Step → LogFileDispatch → Prop
  | idle (label : Step) (h : s.IsKept label) : Moves s label s
  | register (logId path : String) (logIds : List String) :
      Moves s (.register logId path) { s with
        logIds, puts := s.puts ++ [.openFile logId path],
        registered := s.registered ++ [(logId, path)] }
  | unregister (logId : String) (logIds : List String) :
      Moves s (.unregister logId) { s with logIds, puts := s.puts ++ [.closeFile logId] }
  | emit {logId : String} (line : Option String) (h : logId ∈ s.logIds) :
      Moves s (.emit logId line) { s with
        emissions := s.emissions + 1, found := s.found ++ [⟨logId, s.emissions⟩],
        puts := s.puts ++ (line.map (Item.writeLine ⟨logId, s.emissions⟩)).toList }
  | full {call : Nat} {item : Item} (h : s.puts[call]? = some item) :
      Moves s (.put call true) { s with
        puts := s.puts.eraseIdx call, counts := s.counts ++ [item] }
  | put {call : Nat} {item : Item} (h : s.puts[call]? = some item) :
      Moves s (.put call false) { s with
        puts := s.puts.eraseIdx call, queue := s.queue ++ [item],
        submitted := s.submitted ++ [item] }
  | count {call : Nat} {item : Item} (h : s.counts[call]? = some item) :
      Moves s (.count call) { s with
        counts := s.counts.eraseIdx call, dropped := s.dropped + 1, counted := s.counted ++ [item] }
  | write {item : Item} {queue : List Item} (h : s.queue = item :: queue) :
      Moves s .write { s with queue, writer := s.writer.apply item }

theorem moves_step (s : LogFileDispatch) (label : Step) : s.Moves label (s.step label) := by
  cases label with
  | register logId path => exact .register logId path _
  | unregister logId => exact .unregister logId _
  | emit logId line =>
    rw [step]
    split
    · rename_i h
      exact .emit line h
    · rename_i h
      exact .idle _ (fun hmem => absurd hmem h)
  | put call full =>
    rw [step]
    cases h : s.puts[call]? with
    | none =>
      cases full with
      | false =>
        apply Moves.idle
        intro record line hcall
        rw [h] at hcall
        cases hcall
      | true => exact .idle _ trivial
    | some item =>
      cases full with
      | false => exact .put h
      | true => exact .full h
  | count call =>
    rw [step]
    cases h : s.counts[call]? with
    | none => exact .idle _ trivial
    | some item => exact .count h
  | write =>
    rw [step]
    cases h : s.queue with
    | nil =>
      dsimp only
      exact .idle _ trivial
    | cons item queue => exact .write h

/-- The items change places only. -/
theorem sound_of_moved {t : LogFileDispatch} (h : s.Sound) (hitems : t.items.Perm s.items)
    (hregistered : t.registered = s.registered) (hfound : t.found = s.found)
    (hemissions : t.emissions = s.emissions)
    (hplayed : t.writer.applyAll t.queue = Writer.init.applyAll t.submitted)
    (hdropped : t.dropped = t.counted.length) : t.Sound := by
  have hnew : t.items.Perm ([] ++ s.items) := hitems
  apply sound_of_perm h hnew nofun _ _ _ List.nodup_nil nofun hplayed hdropped
  · rw [hregistered]
    exact List.Subset.refl _
  · rw [hfound]
    exact List.Subset.refl _
  · rw [hfound, hemissions]
    exact h.bounded

theorem sound_move {t : LogFileDispatch} {label : Step} (h : s.Sound) (hmove : s.Moves label t) :
    t.Sound := by
  cases hmove with
  | idle => exact h
  | register logId path logIds =>
    refine sound_of_perm h new_perm ?_ (List.subset_append_left _ _) (List.Subset.refl _) h.bounded
      List.nodup_nil nofun h.played h.dropped_eq
    intro item hitem
    obtain rfl := List.mem_singleton.mp hitem
    exact List.mem_append_right _ (List.mem_singleton_self _)
  | unregister logId logIds =>
    refine sound_of_perm h new_perm ?_ (List.Subset.refl _) (List.Subset.refl _) h.bounded
      List.nodup_nil nofun h.played h.dropped_eq
    intro item hitem
    obtain rfl := List.mem_singleton.mp hitem
    trivial
  | @emit logId line hmem =>
    refine sound_of_perm h new_perm ?_ (List.Subset.refl _) (List.subset_append_left _ _) ?_ ?_ ?_
      h.played h.dropped_eq
    · intro item hitem
      obtain ⟨text, -, rfl⟩ := Option.map_eq_some_iff.mp (Option.mem_toList.mp hitem)
      exact List.mem_append_right _ (List.mem_singleton_self _)
    · intro record hrecord
      rcases List.mem_append.mp hrecord with hold | hnew
      · exact Nat.lt_succ_of_lt (h.bounded record hold)
      · obtain rfl := List.mem_singleton.mp hnew
        exact Nat.lt_succ_self _
    · cases line with
      | none => exact List.nodup_nil
      | some text => exact List.nodup_singleton _
    · intro n hn
      cases line with
      | none => cases hn
      | some text =>
        obtain rfl := List.mem_singleton.mp hn
        exact Nat.le_refl _
  | @full call item hcall =>
    refine sound_of_moved h ?_ rfl rfl rfl h.played h.dropped_eq
    unfold items
    rw [List.append_assoc]
    exact move_perm hcall
  | @put call item hcall =>
    refine sound_of_moved h ?_ rfl rfl rfl ?_ h.dropped_eq
    · have hmoved : (s.puts.eraseIdx call ++ (s.counts ++ s.submitted ++ item :: s.counted)).Perm
          (s.puts ++ (s.counts ++ s.submitted ++ s.counted)) := move_perm hcall
      simpa only [items, List.append_assoc, List.singleton_append] using hmoved
    · rw [Writer.applyAll_append, Writer.applyAll_append, h.played]
  | @count call item hcall =>
    refine sound_of_moved h ?_ rfl rfl rfl h.played ?_
    · have hmoved : (s.counts.eraseIdx call ++ (s.submitted ++ s.counted ++ [item])).Perm
          (s.counts ++ (s.submitted ++ s.counted ++ [])) := move_perm hcall
      have hmore := hmoved.append_left s.puts
      simpa only [items, List.append_assoc, List.append_nil] using hmore
    · rw [List.length_append, List.length_singleton, ← h.dropped_eq]
  | @write item queue hqueue =>
    refine sound_of_moved h (List.Perm.refl _) rfl rfl rfl ?_ h.dropped_eq
    have hplayed := h.played
    rw [hqueue] at hplayed
    exact hplayed

/-! ## Nothing is lost -/

/-- Each record that found its id registered is on its way, counted, or among the lines once the
writer has taken what is in the queue. -/
def Tracked (s : LogFileDispatch) : Prop :=
  ∀ record ∈ s.found,
    (∃ item ∈ s.puts ++ (s.counts ++ s.counted), item.record? = some record) ∨
      ∃ l ∈ (s.writer.applyAll s.queue).written, l.record = record

theorem tracked_init : Tracked init := nofun

theorem tracked_of_subset {t : LogFileDispatch} (h : s.Tracked) (hfound : t.found = s.found)
    (hitems : s.puts ++ (s.counts ++ s.counted) ⊆ t.puts ++ (t.counts ++ t.counted))
    (hwritten : (s.writer.applyAll s.queue).written ⊆ (t.writer.applyAll t.queue).written) :
    t.Tracked := by
  intro record hrecord
  rw [hfound] at hrecord
  rcases h record hrecord with ⟨item, hitem, hrec⟩ | ⟨l, hl, hrec⟩
  · exact .inl ⟨item, hitems hitem, hrec⟩
  · exact .inr ⟨l, hwritten hl, hrec⟩

/-- A line that finds its file open is written. -/
theorem tracked_put {call : Nat} (h : s.Tracked) (hkept : s.IsKept (.put call false))
    (hcall : s.puts[call]? = some item) :
    Tracked { s with
      puts := s.puts.eraseIdx call, queue := s.queue ++ [item],
      submitted := s.submitted ++ [item] } := by
  intro record hrecord
  have hlater : (s.writer.applyAll s.queue).written ⊆
      (s.writer.applyAll (s.queue ++ [item])).written := by
    rw [Writer.applyAll_append]
    exact (Writer.written_prefix _ _).subset
  rcases h record hrecord with ⟨other, hother, hrec⟩ | ⟨l, hl, hrec⟩
  · have hmoved : (item :: (s.puts.eraseIdx call ++ (s.counts ++ s.counted))).Perm
        (s.puts ++ (s.counts ++ s.counted)) := (eraseIdx_perm hcall).append_right _
    rcases List.mem_cons.mp (hmoved.mem_iff.mpr hother) with rfl | hrest
    · cases other with
      | openFile logId path => cases hrec
      | closeFile logId => cases hrec
      | writeLine own line =>
        obtain rfl := Option.some.inj hrec
        right
        have hopen : s.WillBeOpen own.logId := hkept own line hcall
        have happly : s.writer.applyAll (s.queue ++ [.writeLine own line]) =
            (s.writer.applyAll s.queue).apply (.writeLine own line) := Writer.applyAll_append _ _ _
        rcases (s.writer.applyAll s.queue).written_writeLine own line with
          ⟨-, path, hwritten⟩ | ⟨hclosed, -⟩
        · refine ⟨⟨path, own, line⟩, ?_, rfl⟩
          show _ ∈ (s.writer.applyAll (s.queue ++ [.writeLine own line])).written
          rw [happly, hwritten]
          exact List.mem_append_right _ (List.mem_singleton_self _)
        · exact absurd hclosed hopen
    · exact .inl ⟨other, hrest, hrec⟩
  · exact .inr ⟨l, hlater hl, hrec⟩

theorem tracked_move {t : LogFileDispatch} {label : Step} (h : s.Tracked) (hkept : s.IsKept label)
    (hmove : s.Moves label t) : t.Tracked := by
  cases hmove with
  | idle => exact h
  | register logId path logIds =>
    refine tracked_of_subset h rfl ?_ (List.Subset.refl _)
    exact subset_new
  | unregister logId logIds =>
    refine tracked_of_subset h rfl ?_ (List.Subset.refl _)
    exact subset_new
  | @emit logId line hmem =>
    intro record hrecord
    rcases List.mem_append.mp hrecord with hold | hnew
    · rcases h record hold with ⟨item, hitem, hrec⟩ | hwritten
      · left
        refine ⟨item, ?_, hrec⟩
        exact subset_new hitem
      · exact .inr hwritten
    · obtain rfl := List.mem_singleton.mp hnew
      obtain ⟨text, htext⟩ := Option.ne_none_iff_exists'.mp (hkept hmem)
      subst htext
      left
      refine ⟨.writeLine ⟨logId, s.emissions⟩ text, ?_, rfl⟩
      apply List.mem_append_left
      exact List.mem_append_right _ (List.mem_singleton_self _)
  | @full call item hcall =>
    refine tracked_of_subset h rfl ?_ (List.Subset.refl _)
    have hmoved : (s.puts.eraseIdx call ++ (s.counts ++ item :: s.counted)).Perm
        (s.puts ++ (s.counts ++ s.counted)) := move_perm hcall
    intro other hother
    have hmem := hmoved.mem_iff.mpr hother
    rw [← List.singleton_append, ← List.append_assoc s.counts] at hmem
    exact hmem
  | @put call item hcall => exact tracked_put h hkept hcall
  | @count call item hcall =>
    refine tracked_of_subset h rfl ?_ (List.Subset.refl _)
    have hmoved : (s.counts.eraseIdx call ++ (s.counted ++ [item])).Perm
        (s.counts ++ (s.counted ++ [])) := move_perm hcall
    rw [List.append_nil] at hmoved
    exact fun other hother => (hmoved.append_left s.puts).mem_iff.mpr hother
  | @write item queue hqueue =>
    refine tracked_of_subset h rfl (List.Subset.refl _) ?_
    rw [hqueue]
    exact List.Subset.refl _

/-! ## A state -/

/-- The lines of the files are those that the queue so far makes, or a front of them. -/
theorem written_subset (h : s.Sound) :
    s.writer.written <+: (Writer.init.applyAll s.submitted).written := by
  rw [← h.played]
  exact Writer.written_prefix _ _

theorem emissions_of_written (h : s.Sound) :
    (s.writer.written.map (fun l => l.record.emission)).Sublist
      (s.submitted.filterMap emissionOf) := by
  have hitems := ((written_subset h).sublist.map Line.item).trans (Writer.written_sublist _)
  have hemissions := hitems.filterMap emissionOf
  rw [List.filterMap_map] at hemissions
  have hsome : emissionOf ∘ Line.item = some ∘ (fun l => l.record.emission) := rfl
  rw [hsome, List.filterMap_eq_map] at hemissions
  exact hemissions

theorem accounted_of_sound (h : s.Sound) (htracked : s.Tracked) : s.Accounted := by
  have hsubmitted : s.submitted ⊆ s.items := by
    intro item hitem
    unfold items
    simp [hitem]
  refine ⟨?_, ?_, ?_, ?_, h.dropped_eq⟩
  · intro l hl
    have hplayed := (written_subset h).subset hl
    refine ⟨h.made _ (hsubmitted (Writer.openFile_mem_of_written hplayed)), ?_⟩
    have hitem := (Writer.written_sublist s.submitted).subset (List.mem_map_of_mem hplayed)
    exact h.made _ (hsubmitted hitem)
  · apply (emissions_of_written h).nodup
    refine List.Sublist.nodup (List.Sublist.filterMap emissionOf ?_) h.once
    unfold items
    exact ((List.sublist_append_left _ _).trans (List.sublist_append_right _ _)).trans
      (List.sublist_append_right _ _)
  · exact ((written_subset h).sublist.map Line.item).trans (Writer.written_sublist _)
  · intro hqueue record hrecord hdone
    rcases htracked record hrecord with ⟨item, hitem, hrec⟩ | hwritten
    · rw [← List.append_assoc, List.mem_append] at hitem
      rcases hitem with hflight | hcounted
      · exact absurd hrec (hdone item hflight)
      · exact .inr ⟨item, hcounted, hrec⟩
    · rw [hqueue] at hwritten
      exact .inl hwritten

theorem sound_drained (h : s.Sound) : s.drained.Sound :=
  ⟨h.played, h.made, h.bounded, h.once, h.dropped_eq⟩

/-- An emission is tied to one item. -/
theorem record_once (h : s.Sound) {call : Nat} {line : String}
    (hcall : s.puts[call]? = some (.writeLine record line)) {other : Item}
    (hother : other ∈ s.puts.eraseIdx call ++ (s.counts ++ (s.submitted ++ s.counted))) :
    other.record? ≠ some record := by
  intro hrec
  have hperm : (.writeLine record line :: (s.puts.eraseIdx call ++
      (s.counts ++ (s.submitted ++ s.counted)))).Perm s.items :=
    (eraseIdx_perm hcall).append_right _
  have honce : (record.emission :: (s.puts.eraseIdx call ++
      (s.counts ++ (s.submitted ++ s.counted))).filterMap emissionOf).Nodup :=
    (hperm.filterMap emissionOf).nodup_iff.mpr h.once
  have hemission : emissionOf other = some record.emission := by
    rw [emissionOf, hrec]
    rfl
  exact (List.nodup_cons.mp honce).1 (List.mem_filterMap.mpr ⟨other, hother, hemission⟩)

/-- A line that finds its file closed is neither written nor counted. -/
theorem not_accounted_put (h : s.Sound) {call : Nat} {line : String}
    (hcall : s.puts[call]? = some (.writeLine record line))
    (hclosed : ¬ s.WillBeOpen record.logId) :
    ¬ (s.step (.put call false)).drained.Accounted := by
  intro haccounted
  have hstep : s.step (.put call false) = { s with
      puts := s.puts.eraseIdx call, queue := s.queue ++ [.writeLine record line],
      submitted := s.submitted ++ [.writeLine record line] } := by
    rw [step, hcall]
    rfl
  rw [hstep] at haccounted
  have hfound : record ∈ s.found := by
    apply h.made (.writeLine record line)
    exact List.mem_append_left _ (List.mem_of_getElem? hcall)
  have hlost : (s.writer.applyAll (s.queue ++ [.writeLine record line])) =
      s.writer.applyAll s.queue := by
    rw [Writer.applyAll_append]
    rcases (s.writer.applyAll s.queue).written_writeLine record line with ⟨hopen, -⟩ | ⟨-, hsame⟩
    · exact absurd hopen hclosed
    · exact hsame
  have hdone : IsDone { s with
      puts := s.puts.eraseIdx call, queue := [],
      submitted := s.submitted ++ [.writeLine record line],
      writer := s.writer.applyAll (s.queue ++ [.writeLine record line]) } record := by
    intro other hother
    apply record_once h hcall
    rcases List.mem_append.mp hother with hput | hcount
    · exact List.mem_append_left _ hput
    · exact List.mem_append_right _ (List.mem_append_left _ hcount)
  rcases haccounted.accounted rfl record hfound hdone with ⟨l, hl, hrec⟩ | ⟨item, hitem, hrec⟩
  · have hwritten : l ∈ (Writer.init.applyAll s.submitted).written := by
      rw [← h.played, ← hlost]
      exact hl
    have hitem := (Writer.written_sublist s.submitted).subset (List.mem_map_of_mem hwritten)
    apply record_once h hcall (List.mem_append_right _ (List.mem_append_right _
      (List.mem_append_left _ hitem)))
    show some l.record = some record
    rw [hrec]
  · exact record_once h hcall (List.mem_append_right _ (List.mem_append_right _
      (List.mem_append_right _ hitem))) hrec

/-- A record that cannot be formatted is neither written nor counted. -/
theorem not_accounted_emit (h : s.Sound) {logId : String} (hmem : logId ∈ s.logIds) :
    ¬ (s.step (.emit logId none)).drained.Accounted := by
  intro haccounted
  have hnew : ∀ item ∈ s.items, item.record? ≠ some ⟨logId, s.emissions⟩ := by
    intro item hitem hrec
    have hemission : emissionOf item = some s.emissions := by
      rw [emissionOf, hrec]
      rfl
    have hlt := emission_lt h (List.mem_filterMap.mpr ⟨item, hitem, hemission⟩)
    exact absurd hlt (Nat.lt_irrefl _)
  have hstep : s.step (.emit logId none) = { s with
      emissions := s.emissions + 1, found := s.found ++ [⟨logId, s.emissions⟩] } := by
    rw [step, if_pos hmem]
    simp
  rw [hstep] at haccounted
  have hdone : IsDone { s with
      emissions := s.emissions + 1, found := s.found ++ [⟨logId, s.emissions⟩], queue := [],
      writer := s.writer.applyAll s.queue } ⟨logId, s.emissions⟩ := by
    intro item hitem
    apply hnew
    rcases List.mem_append.mp hitem with hput | hcount
    · exact List.mem_append_left _ hput
    · exact List.mem_append_right _ (List.mem_append_left _ hcount)
  rcases haccounted.accounted rfl _ (List.mem_append_right _ (List.mem_singleton_self _)) hdone with
    ⟨l, hl, hrec⟩ | ⟨item, hitem, hrec⟩
  · have hwritten : l ∈ (Writer.init.applyAll s.submitted).written := by
      rw [← h.played]
      exact hl
    have hitem := (Writer.written_sublist s.submitted).subset (List.mem_map_of_mem hwritten)
    apply hnew l.item
    · exact List.mem_append_right _ (List.mem_append_right _ (List.mem_append_left _ hitem))
    · show some l.record = some _
      rw [hrec]
  · apply hnew item _ hrec
    exact List.mem_append_right _ (List.mem_append_right _ (List.mem_append_right _ hitem))

theorem isKept_of_accounted (h : s.Sound) {label : Step}
    (haccounted : (s.step label).drained.Accounted) : s.IsKept label := by
  cases label with
  | emit logId line =>
    intro hmem hline
    subst hline
    exact not_accounted_emit h hmem haccounted
  | put call full =>
    cases full with
    | true => trivial
    | false =>
      intro record line hcall
      by_contra hclosed
      exact not_accounted_put h hcall hclosed haccounted
  | _ => trivial

/-! ## A run -/

theorem keeps_head (labels : List Step) (h : s.Keeps labels) : s.drained.Accounted := by
  cases labels with
  | nil => exact h.2
  | cons label labels => exact h.1.2

theorem keeps_iff_of_sound (h : s.Sound) (htracked : s.Tracked) (labels : List Step) :
    s.Keeps labels ↔ s.AllKept labels := by
  induction labels generalizing s with
  | nil =>
    refine ⟨fun _ => trivial, fun _ => ⟨accounted_of_sound h htracked, ?_⟩⟩
    exact accounted_of_sound (sound_drained h) htracked
  | cons label labels ih =>
    have hmove := moves_step s label
    refine ⟨?_, ?_⟩
    · rintro ⟨-, hlater⟩
      have hkept := isKept_of_accounted h (keeps_head labels hlater)
      exact ⟨hkept, (ih (sound_move h hmove) (tracked_move htracked hkept hmove)).mp hlater⟩
    · rintro ⟨hkept, hlater⟩
      refine ⟨⟨accounted_of_sound h htracked, accounted_of_sound (sound_drained h) htracked⟩, ?_⟩
      exact (ih (sound_move h hmove) (tracked_move htracked hkept hmove)).mpr hlater

/-- In every run no line is misrouted or lost if and only if each line is formatted and finds, when
its put comes to be taken, the file of its id open. -/
theorem no_record_is_lost_iff (labels : List Step) : init.Keeps labels ↔ init.AllKept labels :=
  keeps_iff_of_sound sound_init tracked_init labels

/-- An emission finds its id registered, and its line comes to the queue before the file is to be
opened. -/
theorem a_line_before_its_file_is_lost : ¬ (∀ labels : List Step, init.Keeps labels) := by
  intro h
  have hkeeps := h [.register "run" "run.log", .emit "run" (some "a\n"), .put 1 false, .put 0 false]
  have haccounted := hkeeps.2.2.2.2.2.accounted rfl ⟨"run", 0⟩ (by decide) (by decide)
  revert haccounted
  decide

end LogFileDispatch

end uni_agent.logging
