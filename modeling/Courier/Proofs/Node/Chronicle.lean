import Courier.Proofs.Node.Telling

/-! # What is told in a run

A node runs, and every channel in it is opened with a pipeline of probes. Its chronicle has a page
for each act, and every channel bears the marks of what is told on it (`Node.Bears.perform`). So in
every run the reactors are called in order up to the first that fails, whose fault is then handed to
each of them, and no reactor is told the end twice (`dispatch_is_lawful`).
-/
set_option autoImplicit false

namespace Courier

open Courier.Wire Courier.Routing Mark

variable {σ : Type}

/-! ## Runs -/

/-- What can happen in a node where every pipeline is made of probes. -/
inductive PipelineAct where
  | openChannel (role : Role) (now : Nat) (timing : Timing) (pipeline : List Probe)
  | operate (c : ChannelId) (o : Operation)
  /-- The writer takes what is queued. -/
  | take (c : ChannelId)
  /-- The writer goes away. -/
  | dropWriter (c : ChannelId)

namespace PipelineAct

def act : PipelineAct → NodeAct σ
  | openChannel role now timing pipeline => .openChannel role now timing (pipeline.map .probe)
  | operate c o => .operate c o
  | take c => .take c
  | dropWriter c => .dropWriter c

/-- What an act puts on its page: only operations tell anything. -/
def Fills (n : Node σ) (page : Page) : PipelineAct → Prop
  | operate c o => n.Records page (o.perform c n) ∧ o.Fills c page (n.channel? c)
  | _ => page = .blank

/-- The end of a channel is to be dispatched, without finishing the channel. -/
def bidsFarewell (c : ChannelId) : PipelineAct → Bool
  | operate c' (.dispatch .disconnected) => c' = c
  | _ => false

def pipeline? : PipelineAct → Option (List Probe)
  | openChannel _ _ _ pipeline => some pipeline
  | _ => none

end PipelineAct

def pipelineRun (policy : σ) (acts : List PipelineAct) : Node σ :=
  (nodeRun policy (acts.map PipelineAct.act)).node

/-- The pipelines with which channels are opened, in order. -/
def opened (acts : List PipelineAct) : List (List Probe) := acts.filterMap PipelineAct.pipeline?

/-- A chronicle of a run has a page for each act. -/
inductive Chronicle (policy : σ) : List PipelineAct → List Page → Prop where
  | start : Chronicle policy [] []
  | snoc {acts : List PipelineAct} {pages : List Page} {a : PipelineAct} {page : Page}
      (h : Chronicle policy acts pages) (hfills : a.Fills (pipelineRun policy acts) page) :
      Chronicle policy (acts ++ [a]) (pages ++ [page])

def told (pages : List Page) (c : ChannelId) : List Entry := pages.flatMap (· c)

theorem pipelineRun_snoc (policy : σ) (acts : List PipelineAct) (a : PipelineAct) :
    pipelineRun policy (acts ++ [a]) = a.act.perform (pipelineRun policy acts) := by
  rw [pipelineRun, List.map_append, nodeRun, List.foldl_append]
  rfl

theorem opened_snoc (acts : List PipelineAct) (a : PipelineAct) :
    opened (acts ++ [a]) = opened acts ++ a.pipeline?.toList := by
  rw [opened, List.filterMap_append]
  cases h : a.pipeline? <;> simp [opened, h]

theorem told_snoc (pages : List Page) (page : Page) (c : ChannelId) :
    told (pages ++ [page]) c = told pages c ++ page c := by
  rw [told, List.flatMap_append, List.flatMap_singleton]
  rfl

/-! ## What a channel bears -/

/-- The channel was opened with this pipeline, and bears the marks of what was told on it since. -/
structure Channel.Bears (ch : Channel σ) (c : ChannelId) (pipeline : List Probe)
    (told : List Entry) (reports : List Notice) : Prop where
  since : ∃ s, (Channel.start s (pipeline.map .probe)).Marked (told.flatMap Entry.marks) ch
  lawful : ∀ e ∈ told, e.Lawful pipeline.length
  reports : reports = (toldIn (told.flatMap Entry.marks)).map (ch.notice c)

/-- Every channel bears the marks of what was told on it, and nothing was told where there is none
yet. -/
structure Node.Bears (n : Node σ) (pipelines : List (List Probe)) (told : Page) : Prop where
  count : n.channels.length = pipelines.length
  absent : ∀ c, n.channel? c = none → told c = [] ∧ n.reports c = []
  present : ∀ c ch, n.channel? c = some ch → ∃ pipeline, pipelines[c.index]? = some pipeline ∧
    ch.Bears c pipeline (told c) (n.reports c)

namespace Channel.Bears

variable {ch ch' : Channel σ} {c : ChannelId} {pipeline : List Probe} {told news : List Entry}
  {reports : List Notice}

theorem length (h : ch.Bears c pipeline told reports) :
    ch.reactors.length = pipeline.length := by
  obtain ⟨s, hsince⟩ := h.since
  rw [hsince.length]
  exact List.length_map ..

theorem probe (h : ch.Bears c pipeline told reports) : ∀ r ∈ ch.reactors, ∃ p, r = .probe p := by
  obtain ⟨s, hsince⟩ := h.since
  intro r hr
  obtain ⟨i, hr⟩ := List.mem_iff_getElem?.1 hr
  rw [hsince.reactors] at hr
  change ((pipeline.map Reactor.probe)[i]?).map _ = some r at hr
  rw [List.getElem?_map, Option.map_map, Option.map_eq_some_iff] at hr
  obtain ⟨p, -, rfl⟩ := hr
  exact ⟨_, rfl⟩

theorem more (h : ch.Bears c pipeline told reports)
    (hmarked : ch.Marked (news.flatMap Entry.marks) ch')
    (hlawful : ∀ e ∈ news, e.Lawful pipeline.length) : ch'.Bears c pipeline (told ++ news)
      (reports ++ (toldIn (news.flatMap Entry.marks)).map (ch.notice c)) := by
  obtain ⟨s, hsince⟩ := h.since
  refine ⟨⟨s, ?_⟩, fun e he => (List.mem_append.1 he).elim (h.lawful e) (hlawful e), ?_⟩
  · rw [List.flatMap_append]
    exact hsince.trans hmarked
  · rw [List.flatMap_append, toldIn_append, List.map_append, hmarked.notice, h.reports]

end Channel.Bears

namespace Node

variable {n n' : Node σ} {pipelines : List (List Probe)} {told page : Page}

theorem Records.count (h : n.Records page n') : n'.channels.length = n.channels.length := by
  -- A place has a channel in both nodes or in none.
  have hle : ∀ (m : Node σ) (i : Nat), m.channel? ⟨i⟩ = none ↔ m.channels.length ≤ i :=
    fun m i => List.getElem?_eq_none_iff
  apply Nat.le_antisymm
  · exact (hle n' _).1 ((h.marked ⟨n.channels.length⟩).1 ((hle n _).2 (Nat.le_refl _))).1
  · cases hch : n.channel? ⟨n'.channels.length⟩ with
    | none => exact (hle n _).1 hch
    | some ch =>
      obtain ⟨ch', hch', -⟩ := (h.marked _).2 ch hch
      rw [(hle n' _).2 (Nat.le_refl _)] at hch'
      cases hch'

theorem Bears.allProbes (h : n.Bears pipelines told) : n.AllProbes := by
  intro c ch hch
  obtain ⟨pipeline, -, hbears⟩ := h.present c ch hch
  exact hbears.probe

theorem Bears.records (h : n.Bears pipelines told) (hrecords : n.Records page n') :
    n'.Bears pipelines fun c => told c ++ page c := by
  refine ⟨hrecords.count.trans h.count, fun c hnone' => ?_, fun c ch' hch' => ?_⟩
  · cases hch : n.channel? c with
    | none =>
      obtain ⟨htold, hreports⟩ := h.absent c hch
      refine ⟨?_, ((hrecords.marked c).1 hch).2.trans hreports⟩
      show told c ++ page c = []
      rw [htold, hrecords.absent c hch]
      rfl
    | some ch =>
      obtain ⟨ch', hch', -⟩ := (hrecords.marked c).2 ch hch
      rw [hnone'] at hch'
      cases hch'
  · cases hch : n.channel? c with
    | none =>
      rw [((hrecords.marked c).1 hch).1] at hch'
      cases hch'
    | some ch =>
      obtain ⟨pipeline, hpipeline, hbears⟩ := h.present c ch hch
      obtain ⟨ch₁, hch₁, hmarked, hreports⟩ := (hrecords.marked c).2 ch hch
      rw [hch'] at hch₁
      cases hch₁
      have hplaces : (n.places c).length = pipeline.length := by
        rw [places, hch]
        simpa using hbears.length
      refine ⟨pipeline, hpipeline, ?_⟩
      rw [hreports]
      exact hbears.more hmarked fun e he => hplaces ▸ hrecords.lawful c e he

theorem Bears.opens (h : n.Bears pipelines told) (s : Session) (pipeline : List Probe) :
    (n.addChannel (.start s (pipeline.map .probe))).2.Bears (pipelines ++ [pipeline]) told := by
  have hold : ∀ c, (n.addChannel (.start s (pipeline.map .probe))).2.channel? c = none →
      n.channel? c = none := by
    intro c hnone
    have hle := List.getElem?_eq_none_iff.1 hnone
    change (n.channels ++ [_]).length ≤ c.index at hle
    rw [List.length_append] at hle
    exact List.getElem?_eq_none (by omega)
  refine ⟨?_, fun c hnone => h.absent c (hold c hnone), fun c ch hch => ?_⟩
  · show (n.channels ++ [_]).length = _
    rw [List.length_append, List.length_append, h.count]
    rfl
  · by_cases hlt : c.index < n.channels.length
    · have hsame : n.channel? c = some ch := by
        rw [← hch]
        exact (List.getElem?_append_left hlt).symm
      obtain ⟨pipeline', hpipeline', hbears⟩ := h.present c ch hsame
      refine ⟨pipeline', ?_, hbears⟩
      rw [List.getElem?_append_left (h.count ▸ hlt)]
      exact hpipeline'
    · -- Nothing was told in this place before.
      have hle : n.channels.length ≤ c.index := Nat.le_of_not_lt hlt
      obtain ⟨htold, hreports⟩ := h.absent c (List.getElem?_eq_none hle)
      change (n.channels ++ [_])[c.index]? = some ch at hch
      rw [List.getElem?_append_right hle] at hch
      have hlast : c.index - n.channels.length = 0 := by
        have := (List.getElem?_eq_some_iff.1 hch).1
        rw [List.length_singleton] at this
        omega
      rw [hlast, List.getElem?_cons_zero, Option.some.injEq] at hch
      refine ⟨pipeline, ?_, ?_⟩
      · rw [List.getElem?_append_right (h.count ▸ hle), ← h.count, hlast]
        rfl
      · rw [htold, ← hch]
        exact ⟨⟨s, .refl _⟩, List.forall_mem_nil _, hreports⟩

theorem Bears.perform (h : n.Bears pipelines told) {a : PipelineAct} (hfills : a.Fills n page) :
    (a.act.perform n).Bears (pipelines ++ a.pipeline?.toList) fun c => told c ++ page c := by
  have hquiet : ∀ n' : Node σ, (∀ c, n.Marked c [] n') → page = .blank →
      n'.Bears (pipelines ++ []) fun c => told c ++ page c := by
    rintro n' hmarked rfl
    rw [List.append_nil]
    exact h.records (.blank hmarked)
  cases a with
  | openChannel role now timing pipeline =>
    rw [show page = .blank from hfills]
    simp only [Page.blank, List.append_nil]
    exact h.opens (.start role now timing) pipeline
  | operate c o =>
    show (o.perform c n).Bears (pipelines ++ []) _
    rw [List.append_nil]
    exact h.records hfills.1
  | take c => exact hquiet _ (unmarked_modify fun _ _ => .of_unchanged rfl rfl rfl rfl) hfills
  | dropWriter c => exact hquiet _ (unmarked_modify fun _ _ => .of_unchanged rfl rfl rfl rfl) hfills

end Node

/-! ## Every run -/

theorem exists_fill {n : Node σ} (hprobes : n.AllProbes) (a : PipelineAct) :
    ∃ page, a.Fills n page := by
  cases a with
  | operate c o => exact exists_page hprobes c o
  | _ => exact ⟨.blank, rfl⟩

/-- Only an act that bids a farewell puts one on its page. -/
theorem PipelineAct.Fills.countP_bidsFarewell {n : Node σ} {a : PipelineAct} {page : Page}
    (h : a.Fills n page) (c : ChannelId) :
    (page c).countP Entry.bidsFarewell ≤ (a.bidsFarewell c).toNat := by
  by_cases hbids : ∃ e ∈ page c, e.bidsFarewell = true
  · obtain ⟨e, he, hbids⟩ := hbids
    cases a with
    | operate c' o =>
      obtain ⟨rfl, rfl, hpage⟩ := h.2.eq_of_bidsFarewell he hbids
      rw [hpage]
      simp [bidsFarewell, hbids]
    | _ =>
      rw [show page = .blank from h] at he
      cases he
  · rw [List.countP_eq_zero.2 fun e he hb => hbids ⟨e, he, hb⟩]
    exact Nat.zero_le _

namespace Chronicle

variable {policy : σ} {acts : List PipelineAct} {pages : List Page}

theorem bears (h : Chronicle policy acts pages) :
    (pipelineRun policy acts).Bears (opened acts) (told pages) := by
  induction h with
  | start => exact ⟨rfl, fun _ _ => ⟨rfl, rfl⟩, fun _ _ => nofun⟩
  | snoc _ hfills ih =>
    rw [pipelineRun_snoc, opened_snoc, funext (told_snoc _ _)]
    exact ih.perform hfills

theorem total (policy : σ) (acts : List PipelineAct) : ∃ pages, Chronicle policy acts pages := by
  induction acts using List.reverseRecOn with
  | nil => exact ⟨[], .start⟩
  | append_singleton acts a ih =>
    obtain ⟨pages, h⟩ := ih
    obtain ⟨page, hfills⟩ := exists_fill h.bears.allProbes a
    exact ⟨pages ++ [page], h.snoc hfills⟩

theorem countP_bidsFarewell (h : Chronicle policy acts pages) (c : ChannelId) :
    (told pages c).countP Entry.bidsFarewell ≤ acts.countP (·.bidsFarewell c) := by
  induction h with
  | start => exact Nat.le_refl _
  | @snoc acts pages a page _ hfills ih =>
    have hlast : [a].countP (·.bidsFarewell c) = (a.bidsFarewell c).toNat := by
      cases ha : a.bidsFarewell c <;> simp [ha]
    rw [told_snoc, List.countP_append, List.countP_append, hlast]
    exact Nat.add_le_add ih (hfills.countP_bidsFarewell c)

end Chronicle

/-- The end is dispatched when the channel is over, and where it is bidden. -/
theorem count_disconnected_flatMap {es : List Entry} {size : Nat} (h : ∀ e ∈ es, e.Lawful size) :
    (es.flatMap Entry.events).count .disconnected =
      (es.flatMap Entry.marks).countP isEnded + es.countP Entry.bidsFarewell := by
  induction es with
  | nil => rfl
  | cons e es ih =>
    have hfirst := (h e (List.mem_cons_self ..)).count_disconnected
    have hrest := ih fun e' he' => h e' (List.mem_cons_of_mem _ he')
    have hbids : (e :: es).countP Entry.bidsFarewell =
        e.bidsFarewell.toNat + es.countP Entry.bidsFarewell := by
      cases he : e.bidsFarewell <;> simp [he, Nat.add_comm]
    rw [List.flatMap_cons, List.count_append, hfirst, hrest, List.flatMap_cons,
      List.countP_append, hbids]
    omega

namespace Channel.Bears

variable {ch : Channel σ} {c : ChannelId} {pipeline : List Probe} {told : List Entry}
  {reports : List Notice}

theorem answers (h : ch.Bears c pipeline told reports) (i : Nat) (p : Probe)
    (hp : pipeline[i]? = some p) :
    Answers p.fails p.seen (dealtIn (told.flatMap Entry.marks) i) := by
  obtain ⟨s, hsince⟩ := h.since
  refine hsince.answers i p ?_
  show (pipeline.map Reactor.probe)[i]? = _
  rw [List.getElem?_map, hp]
  rfl

theorem fault (h : ch.Bears c pipeline told reports) :
    ch.fault = (raisedIn (told.flatMap Entry.marks)).head? := by
  obtain ⟨s, hsince⟩ := h.since
  exact hsince.fault

theorem countP_isEnded (h : ch.Bears c pipeline told reports) :
    (told.flatMap Entry.marks).countP isEnded = ch.finished.toNat := by
  obtain ⟨s, hsince⟩ := h.since
  exact (hsince.finished.trans (Nat.zero_add _)).symm

/-- At one go no reactor is called more than four times. -/
theorem toldIn_le (h : ch.Bears c pipeline told reports) {e : Entry} (he : e ∈ told) :
    (toldIn e.marks).length ≤ 4 * pipeline.length := by
  have hover : e.marks.countP isEnded ≤ 1 := by
    have hall := h.countP_isEnded
    obtain ⟨before, behind, rfl⟩ := List.append_of_mem he
    rw [List.flatMap_append, List.countP_append, List.flatMap_cons, List.countP_append] at hall
    have hone := ch.finished.toNat_le
    omega
  calc (toldIn e.marks).length
      ≤ 2 * pipeline.length + 2 * pipeline.length * e.marks.countP isEnded :=
        (h.lawful e he).toldIn_le
    _ ≤ 2 * pipeline.length + 2 * pipeline.length * 1 :=
        Nat.add_le_add_left (Nat.mul_le_mul_left _ hover) _
    _ = 4 * pipeline.length := by omega

end Channel.Bears

/-- No act forgets the first fault of a channel. -/
theorem fault_perform {n : Node σ} (hprobes : n.AllProbes) {c : ChannelId} {ch : Channel σ}
    {f : Fault} (hch : n.channel? c = some ch) (hf : ch.fault = some f) (a : PipelineAct) :
    ∃ ch', (a.act.perform n).channel? c = some ch' ∧ ch'.fault = some f := by
  have hmodify : ∀ c' (g : Channel σ → Channel σ), (∀ ch, (g ch).fault = ch.fault) →
      ∃ ch', (n.modify c' g).channel? c = some ch' ∧ ch'.fault = some f := by
    intro c' g hg
    obtain rfl | hc := eq_or_ne c c'
    · exact ⟨g ch, Node.channel?_modify_of_some hch g, (hg ch).trans hf⟩
    · exact ⟨ch, (Node.channel?_modify_of_ne n g hc).trans hch, hf⟩
  cases a with
  | openChannel role now timing pipeline =>
    exact ⟨ch, (List.getElem?_append_left (List.getElem?_eq_some_iff.1 hch).1).trans hch, hf⟩
  | operate c' o =>
    obtain ⟨page, hrecords, -⟩ := exists_page hprobes c' o
    obtain ⟨ch', hch', hmarked, -⟩ := (hrecords.marked c).2 ch hch
    exact ⟨ch', hch', by rw [hmarked.fault, hf]; rfl⟩
  | take c' => exact hmodify c' _ fun _ => rfl
  | dropWriter c' => exact hmodify c' _ fun _ => rfl

theorem fault_run (policy : σ) (acts more : List PipelineAct) {c : ChannelId} {ch : Channel σ}
    {f : Fault} (hch : (pipelineRun policy acts).channel? c = some ch) (hf : ch.fault = some f) :
    ∃ ch', (pipelineRun policy (acts ++ more)).channel? c = some ch' ∧ ch'.fault = some f := by
  induction more using List.reverseRecOn with
  | nil => exact ⟨ch, by rw [List.append_nil]; exact hch, hf⟩
  | append_singleton more a ih =>
    obtain ⟨ch', hch', hf'⟩ := ih
    obtain ⟨pages, h⟩ := Chronicle.total policy (acts ++ more)
    rw [← List.append_assoc, pipelineRun_snoc]
    exact fault_perform h.bears.allProbes hch' hf' a

/-- Every run has a chronicle, with a lawful account of whatever is done on pipelines of probes. On
each channel, the notices are the calls in the chronicle, and each probe failed where it says so;
what is told at one go comes to an end, within four calls of each reactor; the fault that a channel
remembers is the first that was raised, and it keeps it; and the end is dispatched once at most,
when the channel is finished, but for the times that it is bidden without that. To finish a channel
is to mark it, to close it and to dispatch its end. -/
theorem dispatch_is_lawful (policy : σ) (acts : List PipelineAct) :
    ∃ pages, Chronicle policy acts pages ∧
      ∀ c ch, (pipelineRun policy acts).channel? c = some ch →
        ∃ pipeline, (opened acts)[c.index]? = some pipeline ∧
          ch.Bears c pipeline (told pages c) ((pipelineRun policy acts).reports c) ∧
          (∀ e ∈ told pages c, (toldIn e.marks).length ≤ 4 * pipeline.length) ∧
          (∀ i p, pipeline[i]? = some p →
            Answers p.fails p.seen (dealtIn ((told pages c).flatMap Entry.marks) i)) ∧
          ch.fault = (raisedIn ((told pages c).flatMap Entry.marks)).head? ∧
          ((told pages c).flatMap Entry.events).count .disconnected ≤
            ch.finished.toNat + acts.countP (·.bidsFarewell c) ∧
          (∀ more f, ch.fault = some f →
            ∃ ch', (pipelineRun policy (acts ++ more)).channel? c = some ch' ∧
              ch'.fault = some f) ∧
          (ch.finished = false → finish c (pipelineRun policy acts) =
            dispatch c .disconnected
              ((pipelineRun policy acts).modify c fun _ => { ch with finished := true }.close)) := by
  obtain ⟨pages, hpages⟩ := Chronicle.total policy acts
  refine ⟨pages, hpages, fun c ch hch => ?_⟩
  obtain ⟨pipeline, hpipeline, hbears⟩ := hpages.bears.present c ch hch
  refine ⟨pipeline, hpipeline, hbears, fun e he => hbears.toldIn_le he, hbears.answers,
    hbears.fault, ?_, fun more f hf => fault_run policy acts more hch hf, fun hopen => ?_⟩
  · rw [count_disconnected_flatMap hbears.lawful, hbears.countP_isEnded]
    exact Nat.add_le_add_left (hpages.countP_bidsFarewell c) _
  · exact finish_eq_dispatch (hpages.bears.allProbes.probes hch) hch (by simp [hopen])

/-- The second of three probes fails on a request, and the last one finishes the channel when it is
told of a fault. -/
def touchy : List Probe :=
  [⟨"first", fun _ => [], fun _ => none, []⟩,
    ⟨"second", fun _ => [], fun seen =>
      if seen.head? = some (.event .fetchRequested) then some .notIdentified else none, []⟩,
    ⟨"last", fun
      | .exception _ :: _ => [.finish]
      | _ => [], fun _ => none, []⟩]

example : (dispatch ⟨0⟩ .fetchRequested ((Node.start ()).addChannel
      (.start (.start .responder 0 {}) (touchy.map .probe))).2).notices.toList.map
        (fun x => (x.reporter, x.signal)) =
    [(.probe "first", .event .fetchRequested), (.probe "second", .event .fetchRequested),
      (.probe "first", .exception .notIdentified), (.probe "second", .exception .notIdentified),
      (.probe "last", .exception .notIdentified), (.probe "first", .event .disconnected),
      (.probe "second", .event .disconnected), (.probe "last", .event .disconnected)] := by
  decide +kernel

end Courier
