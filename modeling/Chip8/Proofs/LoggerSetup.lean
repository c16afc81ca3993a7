import Chip8.Log.Registry
import Chip8.Proofs.CreatedFiles

/-!
# The first request decides

The first request for a name configures its logger, and what it asks for stands; later requests for the
name are answered with the same logger, whatever they ask for, and create no file. Requests for other
names neither see nor change it: a name is looked up whole, also when it has dots in it.

* `Registry.find?_setup_of_ne` — one request and the other names
* `Registry.Answers` — what a request leaves that does not fail
* `Registry.setupAll_of_createAll` — several requests whose files can be created
* `Registry.first_request_decides` — every list of requests
-/

namespace Chip8

/-! ## Requests -/

namespace LoggerRequest

variable {q : LoggerRequest} {qs : List LoggerRequest}

/-- The requests that are the first with their name. -/
def firsts : List LoggerRequest → List LoggerRequest
  | [] => []
  | q :: qs => q :: (firsts qs).filter fun later => later.name ≠ q.name

theorem mem_firsts_iff : q ∈ firsts qs ↔ qs.find? (fun first => first.name = q.name) = some q := by
  induction qs with
  | nil => simp [firsts]
  | cons head rest ih =>
    rw [firsts, List.mem_cons, List.mem_filter, ih]
    by_cases hname : head.name = q.name
    · simp [hname, eq_comm]
    · have hne : q ≠ head := fun heq => hname (congrArg name heq.symm)
      simp [hname, hne, Ne.symm hname]

theorem keptName_of_ne (hq : q.name ≠ "") : q.keptName = q.name := if_neg hq

/-- What a logger is that a request has configured. -/
structure Configures (q : LoggerRequest) (l : Logger) : Prop where
  name : l.name = q.name
  withoutFile : q.file = none → l.level = q.console ∧ l.handlers = [q.console]
  withFile : ∀ path, q.file = some path → l.level = q.level ∧ l.handlers = [q.console, q.level]

theorem configures_logger (hq : q.name ≠ "") : q.Configures q.logger := by
  have hname := keptName_of_ne hq
  unfold logger
  constructor
  case name => cases q.file <;> exact hname
  case withoutFile =>
    intro hfile
    rw [hfile]
    exact ⟨rfl, rfl⟩
  case withFile =>
    intro path hfile
    rw [hfile]
    exact ⟨rfl, rfl⟩

end LoggerRequest

/-! ## Loggers -/

namespace Registry

variable {r : Registry} {q : LoggerRequest} {qs : List LoggerRequest} {l : Logger} {n : String}

theorem find?_keep (r : Registry) (l : Logger) (n : String) :
    (r.keep l).find? n = (r.find? n).or (if l.name = n then some l else none) := by
  unfold find? keep
  rw [List.find?_append]
  by_cases hname : l.name = n <;> simp [hname]

theorem name_logger (q : LoggerRequest) : q.logger.name = q.keptName := by
  unfold LoggerRequest.logger
  cases q.file <;> rfl

/-- A request leaves the loggers of all other names as they are, also if it fails. -/
theorem find?_setup_of_ne (r : Registry) (h : n ≠ q.keptName) : (r.setup q).1.find? n = r.find? n := by
  have hkeep : ∀ (r : Registry) (l : Logger), l.name = q.keptName → (r.keep l).find? n = r.find? n := by
    intro r l hl
    rw [find?_keep, hl, if_neg h.symm, Option.or_none]
  unfold setup
  split
  · rfl
  split
  · exact hkeep r _ (name_logger q)
  split
  · exact hkeep _ _ (name_logger q)
  · exact hkeep r _ (name_logger q)

theorem setupAll_append (qs qs' : List LoggerRequest) : ∀ r : Registry,
    (r.setupAll (qs ++ qs')).1 = ((r.setupAll qs).1.setupAll qs').1 := by
  induction qs with
  | nil => exact fun _ => rfl
  | cons q qs ih => exact fun r => ih (r.setup q).1

/-- What a request leaves that does not fail: a logger for its name, which it has configured unless it
was configured before. -/
structure Answers (r : Registry) (q : LoggerRequest) : Prop where
  find? : ∀ n, (r.setup q).1.find? n = (r.find? n).or (if q.name = n then some q.logger else none)
  answer : ∃ l, (r.setup q).1.find? q.name = some l ∧ (r.setup q).2 = .ok l

theorem answers_of_known (hq : q.name ≠ "") (h : r.find? q.name = some l) :
    r.Answers q ∧ (r.setup q).1 = r := by
  have hname := LoggerRequest.keptName_of_ne hq
  have hsetup : r.setup q = (r, .ok l) := by
    unfold setup
    rw [hname, h]
  constructor
  · constructor
    case find? =>
      intro n
      rw [hsetup]
      by_cases hn : q.name = n
      · rw [← hn, h, Option.some_or]
      · rw [if_neg hn, Option.or_none]
    case answer => exact ⟨l, by rw [hsetup, h], by rw [hsetup]⟩
  · rw [hsetup]

theorem answers_of_new {last : FileTree} {paths : List String} (hq : q.name ≠ "")
    (hnew : r.find? q.name = none) (h : r.files.createAll (q.file.toList ++ paths) = .ok last) :
    r.Answers q ∧ (r.setup q).1.files.createAll paths = .ok last := by
  have hname := LoggerRequest.keptName_of_ne hq
  obtain ⟨files, hsetup, hrest⟩ : ∃ files : FileTree,
      r.setup q = (({ r with files := files } : Registry).keep q.logger, .ok q.logger) ∧
        files.createAll paths = .ok last := by
    unfold setup
    rw [hname, hnew]
    cases hfile : q.file with
    | none =>
      rw [hfile] at h
      exact ⟨r.files, rfl, h⟩
    | some path =>
      rw [hfile] at h
      obtain ⟨files, place, hcreate, hrest⟩ := FileTree.exists_create_of_createAll h
      exact ⟨files, by simp only [hcreate], hrest⟩
  have hfind : ∀ n, (r.setup q).1.find? n =
      (r.find? n).or (if q.name = n then some q.logger else none) := by
    intro n
    rw [hsetup, find?_keep, name_logger, hname]
    rfl
  refine ⟨⟨hfind, q.logger, ?_, by rw [hsetup]⟩, by rw [hsetup]; exact hrest⟩
  rw [hfind, hnew, if_pos rfl, Option.none_or]

/-! ## Several requests -/

/-- The requests that configure a logger: the first with their name, if it is not configured yet. -/
def pending (r : Registry) (qs : List LoggerRequest) : List LoggerRequest :=
  (LoggerRequest.firsts qs).filter fun q => r.find? q.name = none

/-- The logger that a name comes to have. -/
def awaited? (r : Registry) (qs : List LoggerRequest) (n : String) : Option Logger :=
  (r.find? n).or ((qs.find? fun q => q.name = n).map LoggerRequest.logger)

theorem pending_cons (r : Registry) (q : LoggerRequest) (qs : List LoggerRequest) :
    r.pending (q :: qs) = (if r.find? q.name = none then [q] else []) ++
      (r.pending qs).filter fun later => later.name ≠ q.name := by
  unfold pending
  rw [LoggerRequest.firsts, List.filter_cons, List.filter_comm]
  by_cases hnew : r.find? q.name = none <;> simp [hnew]

/-- Once a request is answered no other request for its name configures a logger. -/
theorem Answers.pending_eq (h : r.Answers q) (qs : List LoggerRequest) :
    (r.setup q).1.pending qs = (r.pending qs).filter fun later => later.name ≠ q.name := by
  unfold pending
  rw [List.filter_filter]
  refine List.filter_congr fun later _ => ?_
  rw [h.find?]
  by_cases hname : q.name = later.name
  · simp [hname]
  · simp [hname, Ne.symm hname]

theorem Answers.awaited?_cons (h : r.Answers q) (qs : List LoggerRequest) (n : String) :
    r.awaited? (q :: qs) n = (r.setup q).1.awaited? qs n := by
  unfold awaited?
  rw [h.find?, Option.or_assoc]
  by_cases hname : q.name = n <;> simp [hname]

/-- The first of several requests whose files can be created does not fail, and those of the others can
be created after it. -/
theorem answers_of_createAll {last : FileTree} (hq : q.name ≠ "")
    (h : r.files.createAll ((r.pending (q :: qs)).filterMap (·.file)) = .ok last) :
    r.Answers q ∧
      (r.setup q).1.files.createAll (((r.setup q).1.pending qs).filterMap (·.file)) = .ok last := by
  rw [pending_cons] at h
  rcases hfind : r.find? q.name with _ | l
  · rw [if_pos hfind, List.filterMap_append] at h
    obtain ⟨hanswers, hrest⟩ := answers_of_new hq hfind h
    rw [hanswers.pending_eq]
    exact ⟨hanswers, hrest⟩
  · obtain ⟨hanswers, hsame⟩ := answers_of_known hq hfind
    rw [if_neg (by simp [hfind]), List.nil_append] at h
    rw [hanswers.pending_eq, hsame]
    exact ⟨hanswers, h⟩

theorem setupAll_of_createAll (qs : List LoggerRequest) : ∀ {r : Registry} {last : FileTree},
    (∀ q ∈ qs, q.name ≠ "") → r.files.createAll ((r.pending qs).filterMap (·.file)) = .ok last →
      (r.setupAll qs).1.files = last ∧ (∀ n, (r.setupAll qs).1.find? n = r.awaited? qs n) ∧
      ∀ (k : Nat) (q : LoggerRequest), qs[k]? = some q →
        ∃ l, r.awaited? qs q.name = some l ∧ (r.setupAll qs).2[k]? = some (.ok l) := by
  induction qs with
  | nil =>
    intro r last _ h
    cases h
    exact ⟨rfl, fun n => (Option.or_none ..).symm, fun k q hk => by simp at hk⟩
  | cons q qs ih =>
    intro r last hnames h
    obtain ⟨hq, hrest⟩ := List.forall_mem_cons.mp hnames
    obtain ⟨hanswers, hothers⟩ := answers_of_createAll hq h
    obtain ⟨hfiles, hfind, hlater⟩ := ih hrest hothers
    refine ⟨hfiles, fun n => (hfind n).trans (hanswers.awaited?_cons qs n).symm, fun k q' hk => ?_⟩
    rw [hanswers.awaited?_cons]
    cases k with
    | zero =>
      cases hk
      obtain ⟨l, hl, hanswer⟩ := hanswers.answer
      exact ⟨l, by rw [awaited?, hl, Option.some_or], congrArg some hanswer⟩
    | succ k => exact hlater k q' hk

/-- **The first request decides.** Starting from no loggers and any files, let every name asked for be
non-empty, and let the files of the requests that are the first with their name be such that they can be
created one after the other. Then each request is answered with the logger of its name, which is
configured as the first request for that name asks, and which the name still has at the end. A request
leaves the loggers of all other names as they are. At the end there are files where there were files at
the start, and at the paths of those first requests. -/
theorem first_request_decides {files last : FileTree} {qs : List LoggerRequest}
    (hnames : ∀ q ∈ qs, q.name ≠ "")
    (hfiles : files.createAll ((LoggerRequest.firsts qs).filterMap (·.file)) = .ok last) :
    let after := fun k => (({ files := files } : Registry).setupAll (qs.take k)).1
    let out := ({ files := files } : Registry).setupAll qs
    (∀ (k : Nat) (q : LoggerRequest), qs[k]? = some q →
      (∃ first l, qs.find? (fun q' => q'.name = q.name) = some first ∧ out.2[k]? = some (.ok l) ∧
        out.1.find? q.name = some l ∧ l.name = q.name ∧ first.Configures l) ∧
      ∀ n, n ≠ q.name → (after (k + 1)).find? n = (after k).find? n) ∧
    ∀ place, (out.1.files.fileAt? place).isSome ↔ (files.fileAt? place).isSome ∨
      ∃ q path, qs.find? (fun q' => q'.name = q.name) = some q ∧ q.file = some path ∧
        place = FileTree.placeAt (.ofText path) := by
  intro after out
  have hpending : ({ files := files } : Registry).pending qs = LoggerRequest.firsts qs :=
    List.filter_eq_self.mpr fun _ _ => rfl
  obtain ⟨hlast, hfind, hanswers⟩ :=
    setupAll_of_createAll (r := { files := files }) qs hnames (by rw [hpending]; exact hfiles)
  refine ⟨fun k q hk => ⟨?_, fun n hn => ?_⟩, fun place => ?_⟩
  · obtain ⟨l, hl, hanswer⟩ := hanswers k q hk
    obtain ⟨first, hfirst, rfl⟩ := Option.map_eq_some_iff.mp hl
    have hname : first.name = q.name := by simpa using List.find?_some hfirst
    have hconfigures : first.Configures first.logger :=
      LoggerRequest.configures_logger (hnames first (List.mem_of_find?_eq_some hfirst))
    exact ⟨first, first.logger, hfirst, hanswer, (hfind q.name).trans hl,
      hconfigures.name.trans hname, hconfigures⟩
  · have hq : q.name ≠ "" := hnames q (List.mem_of_getElem? hk)
    have hafter : after (k + 1) = ((after k).setup q).1 := by
      show (setupAll _ (qs.take (k + 1))).1 = _
      rw [List.take_add_one, hk, setupAll_append]
      rfl
    rw [hafter]
    exact find?_setup_of_ne _ (by rwa [LoggerRequest.keptName_of_ne hq])
  · rw [show out.1.files = last from hlast, FileTree.isSome_fileAt?_createAll _ hfiles]
    simp only [List.mem_filterMap, LoggerRequest.mem_firsts_iff]
    refine or_congr_right ⟨?_, ?_⟩
    · rintro ⟨path, ⟨q, hq, hfile⟩, hplace⟩
      exact ⟨q, path, hq, hfile, hplace⟩
    · rintro ⟨q, path, hq, hfile, hplace⟩
      exact ⟨path, ⟨q, hq, hfile⟩, hplace⟩

/-- A child of a name asks for a file below a directory that is yet to be made. Then both names are asked
for again, one with another file and one without. -/
theorem first_request_decides_for_child :
    let qs : List LoggerRequest := [⟨"a", 10, 30, none⟩, ⟨"a.b", 5, 40, some "logs/x.log"⟩,
      ⟨"a", 20, 50, some "other.log"⟩, ⟨"a.b", 50, 50, none⟩]
    let out := ({} : Registry).setupAll qs
    (∃ l, out.2[2]? = some (.ok l) ∧ l.name = "a" ∧ l.level = 30 ∧ l.handlers = [30]) ∧
    (∃ l, out.2[3]? = some (.ok l) ∧ l.name = "a.b" ∧ l.level = 5 ∧ l.handlers = [40, 5]) ∧
    (out.1.files.fileAt? ["logs", "x.log"]).isSome ∧ ¬ (out.1.files.fileAt? ["other.log"]).isSome := by
  intro qs out
  have hnames : ∀ q ∈ qs, q.name ≠ "" := by decide
  have hcreate : ({} : FileTree).createAll ((LoggerRequest.firsts qs).filterMap (·.file)) =
      .ok ⟨[(["logs", "x.log"], [])], [["logs"]]⟩ := rfl
  obtain ⟨hanswers, hplaces⟩ := first_request_decides hnames hcreate
  refine ⟨?_, ?_, ?_, ?_⟩
  · obtain ⟨⟨first, l, hfirst, hanswer, -, hname, hconfigures⟩, -⟩ := hanswers 2 _ rfl
    cases hfirst
    obtain ⟨hlevel, hhandlers⟩ := hconfigures.withoutFile rfl
    exact ⟨l, hanswer, hname, hlevel, hhandlers⟩
  · obtain ⟨⟨first, l, hfirst, hanswer, -, hname, hconfigures⟩, -⟩ := hanswers 3 _ rfl
    cases hfirst
    obtain ⟨hlevel, hhandlers⟩ := hconfigures.withFile _ rfl
    exact ⟨l, hanswer, hname, hlevel, hhandlers⟩
  · exact (hplaces _).mpr (Or.inr ⟨⟨"a.b", 5, 40, some "logs/x.log"⟩, _, rfl, rfl, rfl⟩)
  · intro hother
    have hfirsts : ∀ q ∈ LoggerRequest.firsts qs,
        q.file.map (fun path => FileTree.placeAt (.ofText path)) ≠ some ["other.log"] := by decide
    rcases (hplaces _).mp hother with hstart | ⟨q, path, hq, hfile, hplace⟩
    · cases hstart
    · exact hfirsts q (LoggerRequest.mem_firsts_iff.mpr hq) (by rw [hfile, hplace, Option.map_some])

end Registry

end Chip8
