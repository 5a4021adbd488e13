import AccountTx.Proofs.Assembly.Outcome
import AccountTx.Proofs.Assembly.RoundTrip
import AccountTx.Transaction.Sharing

/-!
Keys are exchanged while transactions are signed. Every exchange gives back the registry that was in
effect before it, so the registries given back and the one in effect are, in order, the first one
and those put in effect. What was obtained is never changed: all that is signed with it, at once or
in two stages, is signed by that one registry.
-/

namespace AccountTx.Sharing

@[simp] theorem Use.reply_ne_holder (what : Use) (r : Registry) (h : Holder) :
    what.reply r ≠ .holder h := by
  cases what <;> nofun

@[simp] theorem Use.reply_ne_kept (what : Use) (r : Registry) (k : Nat) (r' : Registry) :
    what.reply r ≠ .kept k r' := by
  cases what <;> nofun

/-- What a request does, if there is what it names. -/
inductive Step (s : Sharing) : Request → Reply → Sharing → Prop where
  | share {r : Registry} :
      Step s (.share r) (.holder ⟨s.places.length, 0⟩)
        { s with places := s.places ++ [⟨⟨r⟩, 1⟩] }
  | clone {h : Holder} {p : Place} (hplace : s.place? h = some p) :
      Step s (.clone h) (.holder ⟨h.shared, p.holders⟩)
        { s with places := s.places.set h.shared { p with holders := p.holders + 1 } }
  | snapshot {h : Holder} {p : Place} (hplace : s.place? h = some p) :
      Step s (.snapshot h) (.kept s.kept.length p.registry.current)
        { s with kept := s.kept ++ [p.registry.current] }
  | replace {h : Holder} {p : Place} {r : Registry} (hplace : s.place? h = some p) :
      Step s (.replace h r) (.kept s.kept.length p.registry.current)
        ⟨s.places.set h.shared { p with registry := ⟨r⟩ }, s.kept ++ [p.registry.current]⟩
  | use {k : Nat} {r : Registry} {what : Use} (hkept : s.kept[k]? = some r) :
      Step s (.use k what) (what.reply r) s

theorem perform_eq_some_iff {s s' : Sharing} {q : Request} {reply : Reply} :
    s.perform q = some (reply, s') ↔ s.Step q reply s' := by
  constructor
  · intro h
    cases q with
    | share r =>
        cases h
        exact .share
    | clone h' =>
        obtain ⟨p, hplace, h⟩ := Option.bind_eq_some_iff.mp h
        cases h
        exact .clone hplace
    | snapshot h' =>
        obtain ⟨p, hplace, h⟩ := Option.bind_eq_some_iff.mp h
        cases h
        exact .snapshot hplace
    | replace h' r =>
        obtain ⟨p, hplace, h⟩ := Option.bind_eq_some_iff.mp h
        cases h
        exact .replace hplace
    | use k what =>
        obtain ⟨r, hkept, h⟩ := Option.bind_eq_some_iff.mp h
        cases h
        exact .use hkept
  · intro h
    cases h with
    | share => rfl
    | clone hplace => simp [perform, hplace]
    | snapshot hplace => simp [perform, hplace, SharedRegistry.snapshot]
    | replace hplace => simp [perform, hplace, SharedRegistry.replace]
    | use hkept => simp [perform, hkept]

section Runs

variable {s s' : Sharing} {requests : List Request} {log : Log}

theorem run_cons_eq_some_iff {q : Request} :
    s.run (q :: requests) = some (log, s') ↔
      ∃ reply t rest, s.Step q reply t ∧ t.run requests = some (rest, s') ∧
        log = (q, reply) :: rest := by
  constructor
  · intro h
    obtain ⟨⟨reply, t⟩, hstep, h⟩ := Option.bind_eq_some_iff.mp h
    obtain ⟨⟨rest, last⟩, hrest, h⟩ := Option.bind_eq_some_iff.mp h
    cases h
    exact ⟨reply, t, rest, perform_eq_some_iff.mp hstep, hrest, rfl⟩
  · rintro ⟨reply, t, rest, hstep, hrest, rfl⟩
    simp [run, perform_eq_some_iff.mpr hstep, hrest]

/-- What holds of a log and its state, and is kept by every step, holds after a run. -/
theorem run_induction {P : Log → Sharing → Prop} {before : Log}
    (step : ∀ {log s q reply s'}, P log s → s.Step q reply s' → P (log ++ [(q, reply)]) s')
    (hbefore : P before s) (hrun : s.run requests = some (log, s')) : P (before ++ log) s' := by
  induction requests generalizing s before log with
  | nil =>
      cases hrun
      simpa using hbefore
  | cons q requests ih =>
      obtain ⟨reply, t, rest, hstep, hrest, rfl⟩ := run_cons_eq_some_iff.mp hrun
      have hlast := ih (step hbefore hstep) hrest
      rwa [List.append_assoc, List.singleton_append] at hlast

/-- An entry of the log is a step from a state that was reached before it. -/
theorem run_split {past future : Log} {q : Request} {reply : Reply}
    (hrun : s.run requests = some (past ++ (q, reply) :: future, s')) :
    ∃ earlier t t', s.run earlier = some (past, t) ∧ t.Step q reply t' := by
  induction past generalizing s requests with
  | nil =>
      cases requests with
      | nil => cases hrun
      | cons q' requests =>
          obtain ⟨_, t, _, hstep, -, hlog⟩ := run_cons_eq_some_iff.mp hrun
          cases hlog
          exact ⟨[], s, t, rfl, hstep⟩
  | cons e past ih =>
      cases requests with
      | nil => cases hrun
      | cons q' requests =>
          obtain ⟨reply', t, rest, hstep, hrest, hlog⟩ := run_cons_eq_some_iff.mp hrun
          cases hlog
          obtain ⟨earlier, u, u', hpast, hlast⟩ := ih hrest
          exact ⟨q' :: earlier, u, u', run_cons_eq_some_iff.mpr ⟨_, t, _, hstep, hpast, rfl⟩, hlast⟩

end Runs

namespace Log

/-- The registries put in effect by the holders of a shared registry, in order. -/
def installed (log : Log) (shared : Nat) : List Registry :=
  log.filterMap fun
    | (.replace h r, _) => if h.shared = shared then some r else none
    | _ => none

/-- The registries given back to the holders of a shared registry, in order. -/
def returned (log : Log) (shared : Nat) : List Registry :=
  log.filterMap fun
    | (.replace h _, .kept _ r) => if h.shared = shared then some r else none
    | _ => none

/-- A holder, its clones, their clones, and so on. -/
inductive CloneOf (log : Log) (first : Holder) : Holder → Prop where
  | self : CloneOf log first first
  | clone {h h' : Holder} : CloneOf log first h → (.clone h, .holder h') ∈ log →
      CloneOf log first h'

def GaveHolder (log : Log) (h : Holder) : Prop := ∃ q, (q, .holder h) ∈ log

def GaveKept (log : Log) (k : Nat) (r : Registry) : Prop := ∃ q, (q, .kept k r) ∈ log

/-- What a request names was given out before. -/
def Allows (log : Log) : Request → Prop
  | .share _ => True
  | .clone h | .snapshot h | .replace h _ => log.GaveHolder h
  | .use k _ => ∃ r, log.GaveKept k r

/-- A transaction was assembled with what is kept under a number, in one or in two stages. -/
def Assembles (log : Log) (k : Nat) (t : PreparedTransaction) (reply : Reply) : Prop :=
  (.use k (.assemble t), reply) ∈ log ∨
    ∃ u, (.use k (.header t), .unsigned (.ok u)) ∈ log ∧ (.use k (.complete u), reply) ∈ log

/-- All that is signed with what is kept under a number is signed by one registry. -/
structure SignsWith (log : Log) (k : Nat) (r : Registry) : Prop where
  signatures : ∀ {digest reply}, (.use k (.sign digest), reply) ∈ log →
    reply = .signatures (r.sign digest)
  transaction : ∀ {t reply}, log.Assembles k t reply →
    reply = .transaction (t.sign r) ∧ ∀ tx, reply = .transaction (.ok tx) → tx.IsOf t r

variable {log : Log} {q : Request} {reply : Reply}

theorem installed_append (more : Log) (shared : Nat) :
    installed (log ++ more) shared = log.installed shared ++ more.installed shared :=
  List.filterMap_append

theorem returned_append (more : Log) (shared : Nat) :
    returned (log ++ more) shared = log.returned shared ++ more.returned shared :=
  List.filterMap_append

theorem gaveHolder_append {h : Holder} :
    GaveHolder (log ++ [(q, reply)]) h ↔ log.GaveHolder h ∨ reply = .holder h := by
  simp [GaveHolder, exists_or, eq_comm]

theorem gaveKept_append {k : Nat} {r : Registry} :
    GaveKept (log ++ [(q, reply)]) k r ↔ log.GaveKept k r ∨ reply = .kept k r := by
  simp [GaveKept, exists_or, eq_comm]

theorem CloneOf.append {first h : Holder} (hclone : log.CloneOf first h) (more : Log) :
    (log ++ more).CloneOf first h := by
  induction hclone with
  | self => exact .self
  | clone _ hmem ih => exact .clone ih (List.mem_append_left more hmem)

end Log

theorem place?_eq_some_iff {s : Sharing} {h : Holder} {p : Place} :
    s.place? h = some p ↔ s.places[h.shared]? = some p ∧ h.number < p.holders := by
  simp [place?, Option.filter_eq_some_iff]

section Holders

variable {log : Log} {s s' : Sharing} {q : Request} {reply : Reply}

theorem exists_place?_share {r : Registry} {h : Holder} :
    (∃ p, place? { s with places := s.places ++ [⟨⟨r⟩, 1⟩] } h = some p) ↔
      (∃ p, s.place? h = some p) ∨ ⟨s.places.length, 0⟩ = h := by
  simp only [place?_eq_some_iff, Holder.ext_iff]
  rcases Nat.lt_trichotomy h.shared s.places.length with hlt | heq | hgt
  · simp [List.getElem?_append_left hlt, (Nat.ne_of_lt hlt).symm]
  · simp [heq, eq_comm]
  · have hout : (s.places ++ [⟨⟨r⟩, 1⟩])[h.shared]? = none :=
      List.getElem?_eq_none (by simpa using Nat.succ_le_of_lt hgt)
    rw [hout, List.getElem?_eq_none hgt.le]
    simp [Nat.ne_of_lt hgt]

/-- With a place that has as many holders or more, only the holders that are new come in. -/
theorem exists_place?_set {h h' : Holder} {p p' : Place} {kept : List Registry}
    (hplace : s.place? h = some p) (hholders : p.holders ≤ p'.holders) :
    (∃ p, place? ⟨s.places.set h.shared p', kept⟩ h' = some p) ↔
      (∃ p, s.place? h' = some p) ∨
        (h'.shared = h.shared ∧ p.holders ≤ h'.number ∧ h'.number < p'.holders) := by
  have hp := (place?_eq_some_iff.mp hplace).1
  have hbound : h.shared < s.places.length := (List.getElem?_eq_some_iff.mp hp).1
  simp only [place?_eq_some_iff]
  by_cases hshared : h'.shared = h.shared
  · rw [hshared, List.getElem?_set_self hbound, hp]
    simp only [Option.some.injEq, exists_eq_left', true_and]
    omega
  · rw [List.getElem?_set_ne (Ne.symm hshared)]
    simp [hshared]

/-- The holders that were given out are those that there are, and each is a clone of a first one. -/
structure Holds (log : Log) (s : Sharing) : Prop where
  gaveHolder_iff : ∀ h, log.GaveHolder h ↔ ∃ p, s.place? h = some p
  cloneOf : ∀ {h}, log.GaveHolder h → log.CloneOf ⟨h.shared, 0⟩ h

theorem Holds.step (hholds : Holds log s) (hstep : s.Step q reply s') :
    Holds (log ++ [(q, reply)]) s' := by
  constructor
  · intro h
    rw [Log.gaveHolder_append, hholds.gaveHolder_iff]
    cases hstep with
    | share => simp [exists_place?_share]
    | clone hplace =>
        rw [exists_place?_set hplace (Nat.le_succ _), Reply.holder.injEq, Holder.ext_iff]
        simp only [Nat.lt_succ_iff, ← Nat.le_antisymm_iff, eq_comm]
    | snapshot hplace => simp [place?]
    | replace hplace =>
        rw [exists_place?_set hplace (by simp)]
        simp
    | use hkept => simp
  · intro h hgave
    rw [Log.gaveHolder_append] at hgave
    rcases hgave with hgave | hnew
    · exact (hholds.cloneOf hgave).append _
    · cases hstep with
      | share =>
          cases hnew
          exact .self
      | clone hplace =>
          cases hnew
          have hclone := hholds.cloneOf ((hholds.gaveHolder_iff _).mpr ⟨_, hplace⟩)
          exact .clone (hclone.append _) (by simp)
      | snapshot hplace => cases hnew
      | replace hplace => cases hnew
      | use hkept => exact absurd hnew (Use.reply_ne_holder _ _ _)

end Holders

section Histories

variable {log : Log} {s s' : Sharing} {q : Request} {reply : Reply}

/-- What a step gives back and puts in effect, between what was in effect and what is. -/
theorem Step.exchange (hstep : s.Step q reply s') {shared : Nat} {p : Place}
    (hp : s.places[shared]? = some p) :
    ∃ p', s'.places[shared]? = some p' ∧
      Log.returned [(q, reply)] shared ++ [p'.registry.current]
        = p.registry.current :: Log.installed [(q, reply)] shared := by
  have hbound : shared < s.places.length := (List.getElem?_eq_some_iff.mp hp).1
  cases hstep with
  | share => exact ⟨p, by rw [← hp, List.getElem?_append_left hbound], rfl⟩
  | @clone h p₁ hplace =>
      have hp₁ := (place?_eq_some_iff.mp hplace).1
      by_cases hshared : h.shared = shared
      · subst hshared
        cases hp₁.symm.trans hp
        exact ⟨_, List.getElem?_set_self hbound, rfl⟩
      · exact ⟨p, by rw [← hp, List.getElem?_set_ne hshared], rfl⟩
  | snapshot hplace => exact ⟨p, hp, rfl⟩
  | @replace h p₁ r hplace =>
      have hp₁ := (place?_eq_some_iff.mp hplace).1
      by_cases hshared : h.shared = shared
      · subst hshared
        cases hp₁.symm.trans hp
        exact ⟨_, List.getElem?_set_self hbound, by simp [Log.returned, Log.installed]⟩
      · refine ⟨p, by rw [← hp, List.getElem?_set_ne hshared], ?_⟩
        simp [Log.returned, Log.installed, hshared]
  | use hkept => exact ⟨p, hp, rfl⟩

theorem Step.length_places (hstep : s.Step q reply s') :
    s'.places.length = s.places.length ∨
      ∃ r, q = .share r ∧ reply = .holder ⟨s.places.length, 0⟩ ∧
        s'.places.length = s.places.length + 1 := by
  cases hstep with
  | share => exact .inr ⟨_, rfl, rfl, by simp⟩
  | _ => exact .inl (by simp)

/-- A step neither gives back nor puts in effect anything where no registry is shared after it. -/
theorem Step.untouched (hstep : s.Step q reply s') {shared : Nat}
    (hout : s'.places.length ≤ shared) :
    s.places.length ≤ shared ∧ Log.returned [(q, reply)] shared = [] ∧
      Log.installed [(q, reply)] shared = [] := by
  cases hstep with
  | share => exact ⟨Nat.le_trans (by simp) hout, rfl, rfl⟩
  | clone hplace => exact ⟨by simpa using hout, rfl, rfl⟩
  | snapshot hplace => exact ⟨hout, rfl, rfl⟩
  | @replace h p r hplace =>
      rw [List.length_set] at hout
      have hbound := (List.getElem?_eq_some_iff.mp (place?_eq_some_iff.mp hplace).1).1
      have hother : h.shared ≠ shared := by omega
      simp [Log.returned, Log.installed, hother, hout]
  | use hkept => exact ⟨hout, rfl, rfl⟩

/-- The registries given back and the one in effect are the first one and those put in effect. -/
structure Remembers (log : Log) (s : Sharing) : Prop where
  history : ∀ {r₀ h}, (.share r₀, .holder h) ∈ log → ∃ p, s.places[h.shared]? = some p ∧
    log.returned h.shared ++ [p.registry.current] = r₀ :: log.installed h.shared
  first : ∀ {shared}, shared < s.places.length → ∃ r₀, (.share r₀, .holder ⟨shared, 0⟩) ∈ log
  untouched : ∀ {shared}, s.places.length ≤ shared →
    log.returned shared = [] ∧ log.installed shared = []

theorem Remembers.step (hremembers : Remembers log s) (hstep : s.Step q reply s') :
    Remembers (log ++ [(q, reply)]) s' := by
  constructor
  · intro r₀ h hmem
    rcases List.mem_append.mp hmem with hmem | hnew
    · obtain ⟨p, hp, hhistory⟩ := hremembers.history hmem
      obtain ⟨p', hp', hexchange⟩ := hstep.exchange hp
      refine ⟨p', hp', ?_⟩
      rw [Log.returned_append, Log.installed_append, List.append_assoc, hexchange,
        ← List.singleton_append, ← List.append_assoc, hhistory, List.cons_append]
    · cases List.mem_singleton.mp hnew
      cases hstep
      obtain ⟨hreturned, hinstalled⟩ := hremembers.untouched (Nat.le_refl _)
      refine ⟨⟨⟨r₀⟩, 1⟩, List.getElem?_concat_length, ?_⟩
      rw [Log.returned_append, Log.installed_append, hreturned, hinstalled]
      rfl
  · intro shared hbound
    rcases hstep.length_places with hlength | ⟨r, rfl, rfl, hlength⟩
    · rw [hlength] at hbound
      obtain ⟨r₀, hmem⟩ := hremembers.first hbound
      exact ⟨r₀, List.mem_append_left _ hmem⟩
    · rcases Nat.lt_succ_iff_lt_or_eq.mp (hlength ▸ hbound) with hbound | rfl
      · obtain ⟨r₀, hmem⟩ := hremembers.first hbound
        exact ⟨r₀, List.mem_append_left _ hmem⟩
      · exact ⟨r, by simp⟩
  · intro shared hout
    obtain ⟨hearlier, hreturned, hinstalled⟩ := hstep.untouched hout
    rw [Log.returned_append, Log.installed_append, hreturned, hinstalled, List.append_nil,
      List.append_nil]
    exact hremembers.untouched hearlier

end Histories

section Keeping

variable {log : Log} {s s' : Sharing} {q : Request} {reply : Reply}

/-- What was given out is kept as it was, and is all that is ever used. -/
structure Keeps (log : Log) (s : Sharing) : Prop where
  gaveKept_iff : ∀ k r, log.GaveKept k r ↔ s.kept[k]? = some r
  reply_eq : ∀ {k what reply}, (.use k what, reply) ∈ log →
    ∃ r, s.kept[k]? = some r ∧ reply = what.reply r

/-- A step adds at most one registry to those that are kept. -/
theorem Step.kept_iff (hstep : s.Step q reply s') (k : Nat) (r : Registry) :
    s'.kept[k]? = some r ↔ s.kept[k]? = some r ∨ reply = .kept k r := by
  have hnew (r' : Registry) : (s.kept ++ [r'])[k]? = some r ↔
      s.kept[k]? = some r ∨ Reply.kept s.kept.length r' = .kept k r := by
    rcases Nat.lt_trichotomy k s.kept.length with hlt | rfl | hgt
    · simp [List.getElem?_append_left hlt, (Nat.ne_of_lt hlt).symm]
    · simp
    · have hout : (s.kept ++ [r'])[k]? = none :=
        List.getElem?_eq_none (by simpa using Nat.succ_le_of_lt hgt)
      rw [hout, List.getElem?_eq_none hgt.le]
      simp [Nat.ne_of_lt hgt]
  cases hstep with
  | snapshot hplace => exact hnew _
  | replace hplace => exact hnew _
  | use hkept => simp
  | _ => simp

theorem Keeps.step (hkeeps : Keeps log s) (hstep : s.Step q reply s') :
    Keeps (log ++ [(q, reply)]) s' := by
  constructor
  · intro k r
    rw [Log.gaveKept_append, hkeeps.gaveKept_iff, hstep.kept_iff]
  · intro k what reply' hmem
    rcases List.mem_append.mp hmem with hmem | hnew
    · obtain ⟨r, hkept, hreply⟩ := hkeeps.reply_eq hmem
      exact ⟨r, (hstep.kept_iff k r).mpr (.inl hkept), hreply⟩
    · cases List.mem_singleton.mp hnew
      cases hstep with
      | use hkept => exact ⟨_, hkept, rfl⟩

end Keeping

section Law

variable {requests : List Request} {log : Log} {s : Sharing}

theorem holds_of_run (hrun : start.run requests = some (log, s)) : Holds log s := by
  have hstart : Holds [] start :=
    ⟨fun h => by simp [Log.GaveHolder, place?, start], fun ⟨_, hmem⟩ => nomatch hmem⟩
  exact run_induction Holds.step hstart hrun

theorem remembers_of_run (hrun : start.run requests = some (log, s)) : Remembers log s := by
  have hstart : Remembers [] start :=
    ⟨(nomatch ·), (nomatch ·), fun _ => ⟨rfl, rfl⟩⟩
  exact run_induction Remembers.step hstart hrun

theorem keeps_of_run (hrun : start.run requests = some (log, s)) : Keeps log s := by
  have hstart : Keeps [] start :=
    ⟨fun k r => by simp [Log.GaveKept, start], fun hmem => nomatch hmem⟩
  exact run_induction Keeps.step hstart hrun

theorem step_of_mem (hrun : start.run requests = some (log, s)) {q : Request} {reply : Reply}
    (hmem : (q, reply) ∈ log) : ∃ t t', Step t q reply t' := by
  obtain ⟨past, future, rfl⟩ := List.append_of_mem hmem
  obtain ⟨-, t, t', -, hstep⟩ := run_split hrun
  exact ⟨t, t', hstep⟩

theorem cloneOf_iff (hrun : start.run requests = some (log, s)) {r₀ : Registry}
    {first : Holder} (hshare : (.share r₀, .holder first) ∈ log) (h : Holder) :
    log.CloneOf first h ↔ log.GaveHolder h ∧ h.shared = first.shared := by
  constructor
  · intro hclone
    induction hclone with
    | self => exact ⟨⟨_, hshare⟩, rfl⟩
    | clone _ hmem ih =>
        obtain ⟨t, t', hstep⟩ := step_of_mem hrun hmem
        cases hstep
        exact ⟨⟨_, hmem⟩, ih.2⟩
  · rintro ⟨hgave, hshared⟩
    obtain ⟨t, t', hstep⟩ := step_of_mem hrun hshare
    cases hstep
    have hclone := (holds_of_run hrun).cloneOf hgave
    rwa [hshared] at hclone

theorem perform_isSome_iff (hrun : start.run requests = some (log, s)) (q : Request) :
    (s.perform q).isSome ↔ log.Allows q := by
  have hholder (h : Holder) : (s.place? h).isSome ↔ log.GaveHolder h := by
    rw [(holds_of_run hrun).gaveHolder_iff, Option.isSome_iff_exists]
  have hkept (k : Nat) : s.kept[k]?.isSome ↔ ∃ r, log.GaveKept k r := by
    simp only [(keeps_of_run hrun).gaveKept_iff, Option.isSome_iff_exists]
  cases q with
  | share r => simp [perform, Log.Allows]
  | use k what =>
      rw [Log.Allows, ← hkept]
      cases hr : s.kept[k]? <;> simp [perform, hr]
  | clone h | snapshot h | replace h r =>
      rw [Log.Allows, ← hholder]
      cases hplace : s.place? h <;> simp [perform, hplace]

/-- What is obtained is the registry put in effect last, or else the first one. -/
theorem obtained_eq {past future : Log} {q : Request} {h : Holder} {reply : Reply}
    (hrun : start.run requests = some (past ++ (q, reply) :: future, s))
    (hq : q = .snapshot h ∨ ∃ r, q = .replace h r) {r₀ : Registry} {first : Holder}
    (hshare : (.share r₀, .holder first) ∈ past ++ (q, reply) :: future)
    (hshared : h.shared = first.shared) :
    ∃ k, reply = .kept k ((past.installed first.shared).getLastD r₀) := by
  obtain ⟨earlier, t, t', hpast, hstep⟩ := run_split hrun
  obtain ⟨p, hplace, hreply⟩ : ∃ p, t.place? h = some p ∧
      reply = .kept t.kept.length p.registry.current := by
    rcases hq with rfl | ⟨r, rfl⟩ <;> cases hstep <;> exact ⟨_, ‹_›, rfl⟩
  obtain ⟨hp, -⟩ := place?_eq_some_iff.mp hplace
  rw [hshared] at hp
  have hremembers := remembers_of_run hpast
  obtain ⟨r₁, hshare₁⟩ := hremembers.first (List.getElem?_eq_some_iff.mp hp).1
  -- the registry was shared before, and was shared only once
  have hr₁ : r₁ = r₀ := by
    obtain ⟨p₁, hp₁, h₁⟩ := (remembers_of_run hrun).history (List.mem_append_left _ hshare₁)
    obtain ⟨p₀, hp₀, h₀⟩ := (remembers_of_run hrun).history hshare
    cases hp₁.symm.trans hp₀
    exact (List.cons.inj (h₁.symm.trans h₀)).1
  subst hr₁
  obtain ⟨p', hp', hhistory⟩ := hremembers.history hshare₁
  cases hp.symm.trans hp'
  refine ⟨t.kept.length, hreply.trans ?_⟩
  have hlast := congrArg (List.getLastD · r₁) hhistory
  rw [List.getLastD_concat, List.getLastD_cons] at hlast
  rw [hlast]

theorem signsWith_of_run (hrun : start.run requests = some (log, s)) {k : Nat} {r : Registry}
    (hgave : log.GaveKept k r) : log.SignsWith k r := by
  have hkeeps := keeps_of_run hrun
  have hkept := (hkeeps.gaveKept_iff k r).mp hgave
  have hreply {what : Use} {reply : Reply} (hmem : (.use k what, reply) ∈ log) :
      reply = what.reply r := by
    obtain ⟨r', hkept', hreply⟩ := hkeeps.reply_eq hmem
    cases hkept.symm.trans hkept'
    exact hreply
  have hsign {t : PreparedTransaction} {reply : Reply} (hassembles : log.Assembles k t reply) :
      reply = .transaction (t.sign r) := by
    rcases hassembles with hmem | ⟨u, hheader, hmem⟩
    · exact hreply hmem
    · have hunsigned := (Reply.unsigned.inj (hreply hheader)).symm
      rw [hreply hmem, Use.reply, PreparedTransaction.sign_of_withSignatureCount hunsigned]
  refine ⟨hreply, fun hassembles => ⟨hsign hassembles, ?_⟩⟩
  rintro tx rfl
  exact PreparedTransaction.sign_eq_ok_iff.mp (Reply.transaction.inj (hsign hassembles)).symm

/-- However the holders of a shared registry act, what they obtain is the registry that any of them
put in effect last, each registry is given back exactly once or still in effect, and all that is
signed with what was obtained is signed by that one registry. A request is refused only if it names
what was never given out. -/
theorem rotation_law (hrun : start.run requests = some (log, s)) {r₀ : Registry} {first : Holder}
    (hshare : (.share r₀, .holder first) ∈ log) :
    (∀ h, log.CloneOf first h ↔ log.GaveHolder h ∧ h.shared = first.shared) ∧
    (∃ p, s.places[first.shared]? = some p ∧
      log.returned first.shared ++ [p.registry.snapshot] = r₀ :: log.installed first.shared) ∧
    (∀ (past : Log) q h reply future, log = past ++ (q, reply) :: future →
      log.CloneOf first h → (q = .snapshot h ∨ ∃ r, q = .replace h r) →
      ∃ k r, r = (past.installed first.shared).getLastD r₀ ∧ reply = .kept k r ∧
        log.SignsWith k r) ∧
    ∀ q, (s.perform q).isSome ↔ log.Allows q := by
  refine ⟨cloneOf_iff hrun hshare, (remembers_of_run hrun).history hshare, ?_,
    perform_isSome_iff hrun⟩
  rintro past q h reply future rfl hclone hq
  have hshared := ((cloneOf_iff hrun hshare h).mp hclone).2
  obtain ⟨k, rfl⟩ := obtained_eq hrun hq hshare hshared
  exact ⟨k, _, rfl, rfl, signsWith_of_run hrun ⟨q, by simp⟩⟩

def otherSigner : Registry := .single fun _ => [9]

/-- A clone obtains the registry before the first holder exchanges it, and assembles with it
after. -/
def twoHolders : List Request :=
  [.share twoSigners, .clone ⟨0, 0⟩, .snapshot ⟨0, 1⟩, .replace ⟨0, 0⟩ otherSigner,
    .use 0 (.assemble initCall), .snapshot ⟨0, 1⟩]

theorem rotation_of_two_holders :
    ∃ (log : Log) (s : Sharing), start.run twoHolders = some (log, s) ∧
      log.CloneOf ⟨0, 0⟩ ⟨0, 1⟩ ∧
      log.returned 0 ++ [otherSigner] = twoSigners :: log.installed 0 ∧
      log.SignsWith 0 twoSigners ∧ log.SignsWith 2 otherSigner := by
  have hrun : start.run twoHolders = some
        ([(.share twoSigners, .holder ⟨0, 0⟩), (.clone ⟨0, 0⟩, .holder ⟨0, 1⟩),
          (.snapshot ⟨0, 1⟩, .kept 0 twoSigners), (.replace ⟨0, 0⟩ otherSigner, .kept 1 twoSigners),
          (.use 0 (.assemble initCall), .transaction (initCall.sign twoSigners)),
          (.snapshot ⟨0, 1⟩, .kept 2 otherSigner)],
        ⟨[⟨⟨otherSigner⟩, 2⟩], [twoSigners, twoSigners, otherSigner]⟩) := rfl
  obtain ⟨hclone, ⟨p, hp, hhistory⟩, hobtained, -⟩ := rotation_law hrun List.mem_cons_self
  have hcloned := (hclone ⟨0, 1⟩).mpr ⟨⟨.clone ⟨0, 0⟩, by simp⟩, rfl⟩
  obtain ⟨_, _, rfl, hearly, hsigns⟩ := hobtained [_, _] _ ⟨0, 1⟩ _ _ rfl hcloned (.inl rfl)
  obtain ⟨_, _, rfl, hlate, hsigns'⟩ :=
    hobtained [_, _, _, _, _] _ ⟨0, 1⟩ _ _ rfl hcloned (.inl rfl)
  cases hp
  cases hearly
  cases hlate
  exact ⟨_, _, hrun, hcloned, hhistory, hsigns, hsigns'⟩

end Law

end AccountTx.Sharing
