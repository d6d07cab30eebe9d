import ScriptHost.Proofs.Provenance.Library
import ScriptHost.Proofs.Provenance.Runs
import ScriptHost.Script.Evaluation.Native

/-!
# Calls keep to an origin

What a call gives and what it leaves of its arguments is traced, whether it is a call of a function
of the script, of the host or of the library. New failures come from the functions of the host only.
-/

namespace ScriptHost.Script

variable {ω : Type} {o : Origin}

/-- The scripts of an engine are traced, and an origin has all failures and log events that the
engine may add. -/
structure Engine.Traced (o : Origin) (e : Engine ω) : Prop where
  /-- The functions of the script are traced. -/
  functions : ∀ f ∈ e.functions, f.Traced o
  /-- The closures of the script are traced. -/
  closures : ∀ f ∈ e.closures, f.Traced o
  /-- Functions of the host may fail. -/
  failed : ∀ name args world f, (e.bridge.call name args world).outcome = .error f → o.failure f
  /-- Functions of the host may write to the log. -/
  logged : ∀ name args world, ∀ event ∈ (e.bridge.call name args world).log, o.event event
  /-- Scripts may print. -/
  printed : ∀ s, o.event (.printed s)
  /-- Scripts may print for debugging. -/
  debugged : ∀ s line, o.event (.debugged s line)

/-- The runs that the rules refer to are traced. -/
structure Evaluator.Traced (o : Origin) (ev : Evaluator ω) : Prop where
  /-- Those of expressions are. -/
  expression : ∀ x, x.Traced o → (ev.expression x).Traced o
  /-- Those of statements are. -/
  statement : ∀ s, s.Traced o → (ev.statement s).Traced o
  /-- Those of native functions are. -/
  native : ∀ name args access pos, (∀ d ∈ args, d.Traced o) →
    (ev.native name args access pos).Traced o

/-! ## Values of the host -/

mutual

theorem traced_encodeWith (lower : Bool) : (v : Value) → (encodeWith lower v).Traced o
  | .decimal d => by
    rw [encodeWith, lowerDecimal]
    split <;> (try split) <;> simp
  | .bigInt i => by
    rw [encodeWith, lowerBigInt]
    split <;> (try split) <;> simp
  | .list items => by
    rw [encodeWith, Datum.Traced]
    exact traced_encodeItems lower items
  | .map fields => by
    rw [encodeWith, Datum.Traced]
    exact traced_encodeFields lower fields
  | .exact inner => traced_encodeWith false inner
  | .callable name => by
    rw [encodeWith]
    split <;> simp
  | .null | .bool _ | .int _ | .float _ | .string _ | .date _ | .time _ | .dateTime _
  | .handle _ => by simp [encodeWith]

theorem traced_encodeItems (lower : Bool) : (items : List Value) →
    ∀ d ∈ encodeItems lower items, d.Traced o
  | [] => by simp [encodeItems]
  | v :: rest => by
    rw [encodeItems]
    exact List.forall_mem_cons.mpr ⟨traced_encodeWith lower v, traced_encodeItems lower rest⟩

theorem traced_encodeFields (lower : Bool) : (fields : List (String × Value)) →
    ∀ p ∈ encodeFields lower fields, p.2.Traced o
  | [] => by simp [encodeFields]
  | (k, v) :: rest => by
    rw [encodeFields]
    exact List.forall_mem_cons.mpr ⟨traced_encodeWith lower v, traced_encodeFields lower rest⟩

end

/-- A value of the host holds no failures. -/
theorem traced_encode (v : Value) : (encode v).Traced o := traced_encodeWith true v

namespace Evaluation

variable {e : Engine ω} {ev : Evaluator ω}

instance : Traceable Access := .plain

@[simp] theorem isTraced_access (a : Access) : IsTraced o a ↔ True := .rfl

/-! ## Checks -/

theorem traced_tick (e : Engine ω) (pos : Position) : (tick e pos).Traced o := by
  intro m hm
  unfold tick
  dsimp only
  split
  · exact ⟨trivial, hm.locals, hm.self, hm.cells, hm.log⟩
  · exact ⟨trivial, hm.locals, hm.self, hm.cells, hm.log⟩

theorem traced_checkSize (e : Engine ω) (d : Datum) (pos : Position) :
    (checkSize e d pos).Traced o := by
  unfold checkSize
  split
  · exact .raise _ pos
  · exact .pure trivial

theorem traced_mismatch {α : Type} [Traceable α] (expected : String) (d : Datum) (pos : Position) :
    (mismatch expected d pos : Run ω α).Traced o := .raise _ pos

theorem traced_asBool (d : Datum) (pos : Position) : (asBool d pos : Run ω Bool).Traced o := by
  unfold asBool
  split
  · exact .pure trivial
  · exact .raise _ pos

theorem traced_ofResult {α : Type} [Traceable α] {r : Except Cause α}
    (hr : ∀ a, r = .ok a → IsTraced o a) (pos : Position) : (ofResult r pos : Run ω α).Traced o := by
  unfold ofResult
  split
  · exact .pure (hr _ rfl)
  · exact .raise _ pos

/-! ## Blocks -/

theorem traced_statements (hev : ev.Traced o) {body : List Stmt} (hbody : ∀ s ∈ body, s.Traced o) :
    (statements ev body).Traced o := by
  induction body using statements.induct with
  | case1 => exact .pure (by simp)
  | case2 s => exact hev.statement s (hbody s List.mem_cons_self)
  | case3 s rest hne ih =>
    obtain ⟨hs, hrest⟩ := List.forall_mem_cons.mp hbody
    rw [statements]
    · exact (hev.statement s hs).bind fun _ _ => ih hrest
    · exact hne

theorem traced_block (hev : ev.Traced o) {body : List Stmt} (hbody : ∀ s ∈ body, s.Traced o) :
    (block ev body).Traced o :=
  (traced_statements hev hbody).afterwards fun _ _ _ h => h.rewind _

/-! ## Functions of the script -/

theorem traced_function? (he : e.Traced o) {name : String} {arity : ℕ} {f : Function}
    (hf : function? e name arity = some f) : f.Traced o :=
  he.functions f (List.mem_of_find?_eq_some hf)

theorem traced_closure? (he : e.Traced o) {name : String} {f : Function}
    (hf : closure? e name = some f) : f.Traced o :=
  he.closures f (List.mem_of_find?_eq_some hf)

theorem traced_pointee? (he : e.Traced o) {name : String} {slots : List Slot} {f : Function}
    (hf : pointee? e name slots = some f) : f.Traced o :=
  traced_closure? he (Option.filter_eq_some_iff.mp hf).1

theorem traced_leaveCall (name : String) (pos : Position) {f : Fault} (hf : f.Traced o) :
    (leaveCall name pos f).Traced o := by
  unfold leaveCall
  split
  · simpa using hf
  · simpa using hf

theorem traced_catchReturn {r : Run ω Datum} (hr : r.Traced o) : (catchReturn r).Traced o := by
  intro m hm
  have hrun := hr m hm
  unfold catchReturn
  generalize r m = result at hrun
  split
  · exact hrun
  · exact hrun

/-- Entering a function leaves a traced object and a traced machine. -/
theorem traced_enter (e : Engine ω) (hev : ev.Traced o) {f : Function} (hf : f.Traced o)
    {args : List Slot} (hargs : ∀ s ∈ args, s.Traced o) (pos : Position) (inScope : Bool)
    (self : Option Datum) (hself : ∀ d ∈ self, d.Traced o) {m : Machine ω} (hm : m.Traced o) :
    (enter e ev f args pos inScope self m).1.Traced o ∧
      (∀ d ∈ (enter e ev f args pos inScope self m).2.1, d.Traced o) ∧
      (enter e ev f args pos inScope self m).2.2.Traced o := by
  unfold enter
  split
  · exact ⟨by simp, hself, hm⟩
  · have htick := traced_tick (o := o) e pos m hm
    generalize tick e pos m = ticked at htick
    obtain ⟨outcome, n⟩ := ticked
    cases outcome with
    | value u =>
      have hn : n.Traced o := htick.2
      dsimp only
      split
      · exact ⟨trivial, hself, hn⟩
      · have hparams : ∀ v ∈ (f.params.zip args).map
            fun (p : String × Slot) => (⟨p.1, false, p.2⟩ : Variable), v.slot.Traced o := by
          intro v hv
          obtain ⟨p, hp, rfl⟩ := List.mem_map.mp hv
          exact hargs p.2 (List.of_mem_zip hp).2
        have hinner : ({ n with
            locals := ((f.params.zip args).map
              fun (p : String × Slot) => (⟨p.1, false, p.2⟩ : Variable)).reverse ++
                if inScope then n.locals else []
            self, level := n.level + 1 } : Machine ω).Traced o := by
          refine ⟨List.forall_mem_append.mpr ⟨fun v hv => hparams v (List.mem_reverse.mp hv), ?_⟩,
            hself, hn.cells, hn.log⟩
          split
          · exact hn.locals
          · simp
        have hrun := (traced_catchReturn (traced_statements hev hf)).mapFault
          (fun x hx => traced_leaveCall f.name pos hx) _ hinner
        generalize (catchReturn (statements ev f.body)).mapFault (leaveCall f.name pos) _ = result
          at hrun ⊢
        obtain ⟨outcome, after⟩ := result
        obtain ⟨hout, hafter⟩ := hrun
        refine ⟨hout, hafter.self, ?_, hn.self, hafter.cells, hafter.log⟩
        dsimp only
        split
        · exact (hafter.rewind _).locals
        · exact hn.locals
    | fault x => exact ⟨htick.1, hself, htick.2⟩
    | jump j => exact ⟨htick.1, hself, htick.2⟩
    | exhausted => exact ⟨trivial, hself, htick.2⟩

theorem traced_callFunction (e : Engine ω) (hev : ev.Traced o) {f : Function} (hf : f.Traced o)
    {args : List Slot} (hargs : ∀ s ∈ args, s.Traced o) (pos : Position) (inScope : Bool) :
    (callFunction e ev f args pos inScope).Traced o := by
  intro m hm
  obtain ⟨hout, -, hafter⟩ :=
    traced_enter e hev hf hargs pos inScope none (by simp) hm
  exact ⟨hout, hafter⟩

theorem traced_callOn (e : Engine ω) (hev : ev.Traced o) {f : Function} (hf : f.Traced o)
    {args : List Slot} (hargs : ∀ s ∈ args, s.Traced o) (pos : Position) :
    (callOn e ev f args pos).Traced o := by
  intro d m hd hm
  obtain ⟨hout, hself, hafter⟩ :=
    traced_enter e hev hf hargs pos false (some d) (by simpa using hd) hm
  unfold callOn
  generalize enter e ev f args pos false (some d) m = result at hout hself hafter
  obtain ⟨outcome, left, after⟩ := result
  refine ⟨hout, ?_, hafter⟩
  cases left with
  | none => exact hd
  | some d' => exact hself d' rfl

/-! ## Calls by name and through pointers -/

theorem traced_captureSlots {curried : List Capture} (hcurried : ∀ c ∈ curried, c.Traced o)
    {args : List Slot} (hargs : ∀ s ∈ args, s.Traced o) :
    ∀ s ∈ curried.map captureSlot ++ args, s.Traced o := by
  refine List.forall_mem_append.mpr ⟨fun s hs => ?_, hargs⟩
  obtain ⟨c, hc, rfl⟩ := List.mem_map.mp hs
  cases c with
  | value d =>
    have hd := hcurried _ hc
    rwa [Capture.Traced] at hd
  | cell id => trivial

theorem traced_ownSlots {ds : List Datum} (hds : ∀ d ∈ ds, d.Traced o) :
    ∀ s ∈ ds.map Slot.own, s.Traced o := by
  intro s hs
  obtain ⟨d, hd, rfl⟩ := List.mem_map.mp hs
  exact hds d hd

theorem traced_slotValue {s : Slot} (hs : s.Traced o) : (slotValue s : Run ω Datum).Traced o :=
  fun _ hm => ⟨hm.content hs, hm⟩

theorem traced_slotValues {args : List Slot} (hargs : ∀ s ∈ args, s.Traced o) :
    Run.Traced o (args.mapM slotValue : Run ω (List Datum)) :=
  .mapM fun s hs => traced_slotValue (hargs s hs)

theorem traced_callByName (he : e.Traced o) (hev : ev.Traced o) (name : String)
    {args : List Slot} (hargs : ∀ s ∈ args, s.Traced o) (access : Access) (pos : Position)
    (inScope : Bool) : (callByName e ev name args access pos inScope).Traced o := by
  unfold callByName
  split
  · next f hf =>
    exact (traced_callFunction e hev (traced_function? he hf) hargs pos inScope).bind
      fun d hd => .pure ⟨hd, by simp⟩
  · exact (traced_slotValues hargs).bind fun ds hds => hev.native name ds access pos hds

theorem traced_callMethod (he : e.Traced o) (hev : ev.Traced o) (name : String)
    {args : List Slot} (hargs : ∀ s ∈ args, s.Traced o) (access : Access) (pos : Position) :
    (callMethod e ev name args access pos).Traced o := by
  unfold callMethod
  split
  · next f hf => exact traced_callOn e hev (traced_function? he hf) hargs pos
  · exact (Focus.Traced.lift (traced_slotValues hargs)).bind fun ds hds =>
      .effect fun d hd => hev.native name _ access pos (List.forall_mem_cons.mpr ⟨hd, hds⟩)

theorem traced_callPointer (he : e.Traced o) (hev : ev.Traced o) (name : String)
    {curried : List Capture} (hcurried : ∀ c ∈ curried, c.Traced o) {args : List Slot}
    (hargs : ∀ s ∈ args, s.Traced o) (pos : Position) :
    (callPointer e ev name curried args pos).Traced o := by
  have hslots := traced_captureSlots hcurried hargs
  unfold callPointer
  dsimp only
  split
  · next f hf => exact traced_callFunction e hev (traced_pointee? he hf) hslots pos false
  · exact (traced_callByName he hev name hslots .copy pos false).bind fun r hr => .pure hr.1

theorem traced_callPointerOn (he : e.Traced o) (hev : ev.Traced o) (name : String)
    {curried : List Capture} (hcurried : ∀ c ∈ curried, c.Traced o) {args : List Slot}
    (hargs : ∀ s ∈ args, s.Traced o) (access : Access) (pos : Position) :
    (callPointerOn e ev name curried args access pos).Traced o := by
  have hslots := traced_captureSlots hcurried hargs
  unfold callPointerOn
  dsimp only
  split
  · next f hf => exact traced_callOn e hev (traced_pointee? he hf) hslots pos
  · exact traced_callMethod he hev name hslots access pos

/-! ## Functions that call back -/

namespace Callback

variable {c : Callback}

theorem traced_once (he : e.Traced o) (hev : ev.Traced o) (hc : ∀ x ∈ c.curried, x.Traced o)
    (self : Option Datum) (hself : ∀ d ∈ self, d.Traced o) (args : List Datum)
    (hargs : ∀ d ∈ args, d.Traced o) : (c.once e ev self args).Traced o := by
  have hslots := traced_ownSlots hargs
  intro m hm
  have hlevel : Machine.Traced o
      { m with level := if (closure? e c.name).isSome then m.level else m.level + 1 } :=
    ⟨hm.locals, hm.self, hm.cells, hm.log⟩
  cases self with
  | some d =>
    obtain ⟨hout, hafter⟩ := (traced_callPointerOn he hev c.name hc hslots .place c.pos).asEffect
      (hself d rfl) _ hlevel
    exact ⟨hout, hafter.locals, hafter.self, hafter.cells, hafter.log⟩
  | none =>
    have hrun : Run.Traced o (do
        return (← callPointer e ev c.name c.curried (args.map Slot.own) c.pos, (none : Option Datum))) :=
      (traced_callPointer he hev c.name hc hslots c.pos).bind fun d hd => .pure ⟨hd, by simp⟩
    obtain ⟨hout, hafter⟩ := hrun _ hlevel
    exact ⟨hout, hafter.locals, hafter.self, hafter.cells, hafter.log⟩

theorem traced_firstPresent (c : Callback) {runs : List (Run ω Effect)}
    (hruns : ∀ r ∈ runs, r.Traced o) : (c.firstPresent runs).Traced o := by
  induction runs with
  | nil => exact .raise _ c.pos
  | cons r rest ih =>
    obtain ⟨hr, hrest⟩ := List.forall_mem_cons.mp hruns
    intro m hm
    have hrun := hr m hm
    unfold firstPresent
    generalize r m = result at hrun ⊢
    obtain ⟨outcome, after⟩ := result
    cases outcome with
    | fault f =>
      dsimp only
      split
      · exact ih hrest m hm
      · exact hrun
    | value a => exact hrun
    | jump j => exact hrun
    | exhausted => exact hrun

theorem traced_onItem (he : e.Traced o) (hev : ev.Traced o) (hc : ∀ x ∈ c.curried, x.Traced o)
    (item : Option Datum) (hitem : ∀ d ∈ item, d.Traced o) (args : List Datum)
    (hargs : ∀ d ∈ args, d.Traced o) (extras : List Datum) (hextras : ∀ d ∈ extras, d.Traced o)
    (place : ℕ) :
    (c.onItem e ev item args extras place).Traced o := by
  unfold onItem
  extract_lets withItem hasItem wanted
  have hwith {args' : List Datum} (hargs' : ∀ d ∈ args', d.Traced o) :
      ∀ d ∈ withItem args', d.Traced o := by
    dsimp only [withItem]
    split
    · intro d hd
      rcases List.eq_or_mem_of_mem_insertIdx hd with rfl | hd
      · exact hitem _ rfl
      · exact hargs' d hd
    · exact hargs'
  have hboth {args' : List Datum} (hargs' : ∀ d ∈ args', d.Traced o) :
      ∀ d ∈ args' ++ extras, d.Traced o := List.forall_mem_append.mpr ⟨hargs', hextras⟩
  have hcall {self : Option Datum} (hself : ∀ d ∈ self, d.Traced o) {args' : List Datum}
      (hargs' : ∀ d ∈ args', d.Traced o) := traced_once he hev hc _ hself _ hargs'
  split
  · exact hcall hitem hargs
  · split
    · exact hcall (by simp) (hwith hargs)
    · split
      · exact hcall hitem (hboth hargs)
      · split
        · exact hcall (by simp) (hboth (hwith hargs))
        · have hone {r : Run ω Effect} (hr : r.Traced o) : ∀ x ∈ [r], Run.Traced o x := by
            simpa using hr
          have hperhaps {r : Run ω Effect} (hr : r.Traced o) :
              ∀ x ∈ (if hasItem then [r] else []), Run.Traced o x := by
            split
            · exact hone hr
            · simp
          refine traced_firstPresent c ?_
          simp only [List.forall_mem_append]
          exact ⟨⟨⟨hone (hcall hitem hargs), hperhaps (hcall (by simp) (hwith hargs))⟩,
            hone (hcall hitem (hboth hargs))⟩, hperhaps (hcall (by simp) (hboth (hwith hargs)))⟩

theorem traced_onElement (he : e.Traced o) (hev : ev.Traced o)
    (hc : ∀ x ∈ c.curried, x.Traced o) (index : ℕ) {d : Datum} (hd : d.Traced o) :
    (c.onElement e ev index d).Traced o := by
  unfold onElement
  refine (traced_onItem he hev hc (some d) (by simpa using hd) _ (by simp) _ (by simp) 0).bind
    fun r hr => .pure ⟨hr.1, ?_⟩
  cases hleft : r.2 with
  | none => exact hd
  | some d' => exact hr.2 d' hleft

/-- Visiting items gives traced answers, and leaves traced items. -/
theorem traced_visit {call : ℕ → Datum → Run ω (Datum × Datum)}
    (hcall : ∀ n d, d.Traced o → (call n d).Traced o) (stop : Datum → Bool) (n : ℕ)
    {ds : List Datum} (hds : ∀ d ∈ ds, d.Traced o) : (visit call stop n ds).Traced o := by
  induction ds generalizing n with
  | nil => exact .pure (by simp)
  | cons d rest ih =>
    obtain ⟨hd, hrest⟩ := List.forall_mem_cons.mp hds
    rw [visit]
    refine (hcall n d hd).bind fun r hr => ?_
    dsimp only
    split
    · exact .pure (by simpa using hr)
    · exact (ih (n + 1) hrest).bind fun s hs =>
        .pure ⟨List.forall_mem_cons.mpr ⟨hr.1, hs.1⟩, List.forall_mem_cons.mpr ⟨hr.2, hs.2⟩⟩

theorem traced_combine (he : e.Traced o) (hev : ev.Traced o) (hc : ∀ x ∈ c.curried, x.Traced o)
    {items : List (ℕ × Datum)} (hitems : ∀ p ∈ items, p.2.Traced o) {acc : Datum}
    (hacc : acc.Traced o) : (combine c e ev items acc).Traced o := by
  induction items generalizing acc with
  | nil => exact .pure hacc
  | cons p rest ih =>
    obtain ⟨i, d⟩ := p
    obtain ⟨hd, hrest⟩ := List.forall_mem_cons.mp hitems
    rw [combine]
    exact (traced_onItem he hev hc none (by simp) [acc, d] (by simpa using ⟨hacc, hd⟩) _
      (by simp) 1).bind fun r hr => ih hrest hr.1

theorem traced_order (he : e.Traced o) (hev : ev.Traced o) (hc : ∀ x ∈ c.curried, x.Traced o)
    {a b : Datum} (ha : a.Traced o) (hb : b.Traced o) : (c.order e ev a b).Traced o := by
  intro m hm
  have hrun := traced_once he hev hc none (by simp) [a, b] (by simpa using ⟨ha, hb⟩) m hm
  unfold order
  generalize c.once e ev none [a, b] m = result at hrun ⊢
  split
  · exact ⟨trivial, hrun.2⟩
  · exact ⟨trivial, hrun.2⟩
  · exact ⟨trivial, hrun.2⟩
  · exact ⟨hrun.1, hrun.2⟩
  · exact ⟨trivial, hrun.2⟩

theorem traced_insertSorted {compare : Datum → Datum → Run ω Ordering}
    (hcompare : ∀ a b, a.Traced o → b.Traced o → (compare a b).Traced o) {d : Datum}
    (hd : d.Traced o) {ds : List Datum} (hds : ∀ d ∈ ds, d.Traced o) :
    (insertSorted compare d ds).Traced o := by
  induction ds with
  | nil => exact .pure (by simpa using hd)
  | cons last before ih =>
    obtain ⟨hlast, hbefore⟩ := List.forall_mem_cons.mp hds
    rw [insertSorted]
    refine (hcompare d last hd hlast).bind fun r _ => ?_
    split
    · exact (ih hbefore).bind fun ds hds => .pure (List.forall_mem_cons.mpr ⟨hlast, hds⟩)
    · exact .pure (List.forall_mem_cons.mpr ⟨hd, hds⟩)

theorem traced_sort {compare : Datum → Datum → Run ω Ordering}
    (hcompare : ∀ a b, a.Traced o → b.Traced o → (compare a b).Traced o) {items : List Datum}
    (hitems : ∀ d ∈ items, d.Traced o) : (sort compare items).Traced o :=
  (Run.Traced.foldlM (fun done hdone d hd => traced_insertSorted hcompare (hitems d hd) hdone)
    (by simp)).bind fun ds hds => .pure fun d hd => hds d (List.mem_reverse.mp hd)

/-- The answer of a callback that is asked for a truth value; a fault is a no. -/
def asked (r : Run ω Effect) : Run ω Bool := fun m =>
  match r m with
  | (.value (v, _), m) => (.value (isTrue v), m)
  | (.exhausted, m) => (.exhausted, m)
  | (.jump j, m) => (.jump j, m)
  | (.fault _, m) => (.value false, m)

theorem traced_asked {r : Run ω Effect} (h : r.Traced o) : (asked r).Traced o := by
  intro m hm
  have hrun := h m hm
  unfold asked
  generalize r m = result at hrun ⊢
  split
  · exact ⟨trivial, hrun.2⟩
  · exact ⟨trivial, hrun.2⟩
  · exact hrun
  · exact ⟨trivial, hrun.2⟩

theorem traced_dedup {same : Datum → Datum → Run ω Bool}
    (hsame : ∀ a b, a.Traced o → b.Traced o → (same a b).Traced o) {last : Datum}
    (hlast : last.Traced o) {ds : List Datum} (hds : ∀ d ∈ ds, d.Traced o) :
    (dedup same last ds).Traced o := by
  induction ds generalizing last with
  | nil => exact .pure (by simpa using hlast)
  | cons d rest ih =>
    obtain ⟨hd, hrest⟩ := List.forall_mem_cons.mp hds
    rw [dedup]
    refine (hsame last d hlast hd).bind fun r _ => ?_
    split
    · exact ih hlast hrest
    · exact (ih hd hrest).bind fun ds hds => .pure (List.forall_mem_cons.mpr ⟨hlast, hds⟩)

end Callback

theorem traced_sortNaturally {descending : Bool} {items ds : List Datum}
    (hitems : ∀ d ∈ items, d.Traced o) (h : sortNaturally descending items = .ok ds) :
    ∀ d ∈ ds, d.Traced o := by
  unfold sortNaturally at h
  split at h
  · cases h
    exact hitems
  · cases h
    exact hitems
  · split at h
    · cases h
    · cases h
      exact fun d hd => hitems d (List.mem_mergeSort.mp hd)

/-- If there is a run, it is traced. -/
def TracedRun (o : Origin) (x : Option (Run ω Effect)) : Prop := ∀ r ∈ x, Run.Traced o r

theorem tracedRun_some {r : Run ω Effect} (hr : r.Traced o) : TracedRun o (some r) := by
  rintro _ ⟨⟩
  exact hr

theorem tracedRun_none : TracedRun o (none : Option (Run ω Effect)) := fun _ h => nomatch h

theorem traced_arrayCallback (he : e.Traced o) (hev : ev.Traced o) {c : Callback}
    (hc : ∀ x ∈ c.curried, x.Traced o) {items rest : List Datum}
    (hitems : ∀ d ∈ items, d.Traced o) (hrest : ∀ d ∈ rest, d.Traced o) :
    TracedRun o (arrayCallback e ev c items rest) := by
  have hvisit (stop : Datum → Bool) (n : ℕ) {ds : List Datum} (hds : ∀ d ∈ ds, d.Traced o) :
      (Callback.visit (c.onElement e ev) stop n ds).Traced o :=
    Callback.traced_visit (fun n _ hd => Callback.traced_onElement he hev hc n hd) stop n hds
  have hsame {a b : Datum} (ha : a.Traced o) (hb : b.Traced o) :
      Run.Traced o (Callback.asked (c.onItem e ev none [a, b] [] 0)) :=
    Callback.traced_asked (Callback.traced_onItem he hev hc none (by simp) [a, b]
      (by simpa using ⟨ha, hb⟩) [] (by simp) 0)
  unfold arrayCallback
  extract_lets each never kept found position item ordered
  have heach (stop : Datum → Bool) {f : List Datum → List Datum → Effect}
      (hf : ∀ vs ds, (∀ d ∈ vs, d.Traced o) → (∀ d ∈ ds, d.Traced o) → IsTraced o (f vs ds)) :
      TracedRun o (each stop f) := by
    rintro _ ⟨⟩
    exact (hvisit stop 0 hitems).bind fun r hr => .pure (hf _ _ hr.1 (List.forall_mem_append.mpr
      ⟨hr.2, fun d hd => hitems d (List.mem_of_mem_drop hd)⟩))
  have hfound (start : ℤ) (stop : Datum → Bool) {f : List Datum → Datum}
      (hf : ∀ vs, (∀ d ∈ vs, d.Traced o) → (f vs).Traced o) : TracedRun o (found start stop f) := by
    rintro _ ⟨⟩
    refine (hvisit stop _ fun d hd => hitems d (List.mem_of_mem_drop hd)).bind fun r hr =>
      .pure ⟨hf _ hr.1, ?_⟩
    simp only [isTraced_option, Option.mem_some_iff, forall_eq', isTraced_datum, Datum.Traced,
      List.forall_mem_append]
    exact ⟨⟨fun d hd => hitems d (List.mem_of_mem_take hd), hr.2⟩,
      fun d hd => hitems d (List.mem_of_mem_drop hd)⟩
  have hkept (vs : List Datum) {ds : List Datum} (hds : ∀ d ∈ ds, d.Traced o) (wanted : Bool) :
      ∀ d ∈ kept vs ds wanted, d.Traced o := by
    intro d hd
    obtain ⟨p, hp, rfl⟩ := List.mem_map.mp hd
    exact hds p.2 (List.of_mem_zip (List.mem_of_mem_filter hp)).2
  have hitem (start : ℤ) (vs : List Datum) : (item start vs).Traced o := by
    dsimp only [item]
    split
    · simp
    · exact Library.traced_getD fun d hd => hitems d (List.mem_of_getElem? hd)
  have hindexed : ∀ p ∈ arrayCallback.indexed items, p.2.Traced o := fun p hp =>
    hitems p.2 (List.of_mem_zip hp).2
  have hreversed : ∀ p ∈ (arrayCallback.indexed items).reverse, p.2.Traced o := fun p hp =>
    hindexed p (List.mem_reverse.mp hp)
  have hlast {vs : List Datum} (hvs : ∀ d ∈ vs, d.Traced o) : (vs.getLastD .unit).Traced o := by
    rw [List.getLastD_eq_getLast?]
    exact Library.traced_getD fun d hd => hvs d (List.mem_of_getLast? hd)
  have hcombine {indexed : List (ℕ × Datum)} (h : ∀ p ∈ indexed, p.2.Traced o) {d : Datum}
      (hd : d.Traced o) : TracedRun o (some do return (← c.combine e ev indexed d, none)) := by
    rintro _ ⟨⟩
    exact (Callback.traced_combine he hev hc h hd).bind fun v hv => .pure ⟨hv, by simp⟩
  have hordered : ∀ r ∈ ordered, Run.Traced o r := by
    intro r hr
    obtain rfl := Option.some_inj.mp hr
    exact Callback.traced_sort (fun _ _ ha hb => Callback.traced_order he hev hc ha hb) hitems
  clear_value each never found kept position item ordered
  split
  · exact heach _ fun vs ds hvs hds => by simpa using ⟨hvs, hds⟩
  · exact heach _ fun vs ds hvs hds => by simpa using hds
  · exact heach _ fun vs ds hvs hds => by simpa using ⟨hkept vs hitems true, hds⟩
  · exact heach _ fun vs ds hvs hds => by simpa using hds
  · exact heach _ fun vs ds hvs hds => by simpa using hds
  · exact heach _ fun vs ds hvs hds => by simpa using ⟨hkept vs hds false, hkept vs hds true⟩
  · exact heach _ fun vs ds hvs hds => by simpa using ⟨hkept vs hds true, hkept vs hds false⟩
  · exact hfound _ _ fun vs hvs => by simp
  · exact hfound _ _ fun vs hvs => by simp
  · exact hfound _ _ fun vs hvs => hitem _ vs
  · exact hfound _ _ fun vs hvs => hitem _ vs
  · exact hfound _ _ fun vs hvs => hlast hvs
  · exact hfound _ _ fun vs hvs => hlast hvs
  · exact hcombine hindexed (by simp)
  · exact hcombine hindexed (hrest _ List.mem_cons_self)
  · exact hcombine hreversed (by simp)
  · exact hcombine hreversed (hrest _ List.mem_cons_self)
  · intro r hr
    obtain ⟨sorted, hsorted, rfl⟩ := Option.map_eq_some_iff.mp hr
    exact (hordered sorted hsorted).bind fun ds hds => .pure (by simpa using hds)
  · intro r hr
    obtain ⟨sorted, hsorted, rfl⟩ := Option.map_eq_some_iff.mp hr
    exact (hordered sorted hsorted).bind fun ds hds => .pure (by simpa using hds)
  · split
    · exact tracedRun_some (.pure (by simp))
    · next d others =>
      obtain ⟨hd, hothers⟩ := List.forall_mem_cons.mp hitems
      exact tracedRun_some ((Callback.traced_dedup (fun a b ha hb => hsame ha hb) hd hothers).bind
        fun ds hds => .pure (by simpa using hds))
  · exact tracedRun_none

theorem traced_mapCallback (he : e.Traced o) (hev : ev.Traced o) {c : Callback}
    (hc : ∀ x ∈ c.curried, x.Traced o) {fields : List (String × Datum)}
    (hfields : ∀ p ∈ fields, p.2.Traced o) : TracedRun o (mapCallback e ev c fields) := by
  unfold mapCallback
  extract_lets parted
  have hparted {f : List (String × Datum) → List (String × Datum) → Effect}
      (hf : ∀ yes no, (∀ p ∈ yes, p.2.Traced o) → (∀ p ∈ no, p.2.Traced o) →
        IsTraced o (f yes no)) : TracedRun o (parted f) := by
    refine tracedRun_some ((Run.Traced.mapM fun p hp => (Callback.traced_onItem he hev hc
      (some p.2) (by simpa using hfields p hp) _ (by simp) _ (by simp) 1).bind
        fun r _ => .pure trivial).bind fun vs _ => .pure ?_)
    have hpart (wanted : Bool) : ∀ p ∈ (((vs.zip fields).filter fun p => p.1 == wanted).map (·.2)),
        p.2.Traced o := by
      intro p hp
      obtain ⟨q, hq, rfl⟩ := List.mem_map.mp hp
      exact hfields q.2 (List.of_mem_zip (List.mem_of_mem_filter hq)).2
    exact hf _ _ (hpart true) (hpart false)
  have hmap {fs : List (String × Datum)} (hfs : ∀ p ∈ fs, p.2.Traced o) :
      (Datum.map fs).Traced o := by
    rwa [Datum.Traced]
  clear_value parted
  split
  · exact hparted fun yes no hyes hno => ⟨hmap hyes, by simp⟩
  · exact hparted fun yes no hyes hno => ⟨hmap hyes, by simpa using hmap hno⟩
  · exact hparted fun yes no hyes hno => ⟨hmap hno, by simpa using hmap hyes⟩
  · exact tracedRun_none

/-- A call that calls back is traced. -/
theorem traced_callingBack? (he : e.Traced o) (hev : ev.Traced o) (name : String)
    {args : List Datum} (hargs : ∀ d ∈ args, d.Traced o) (pos : Position) :
    TracedRun o (callingBack? e ev name args pos) := by
  unfold callingBack?
  split
  all_goals try simp only [List.forall_mem_cons, Datum.Traced] at hargs
  · exact traced_arrayCallback he hev hargs.2.1 hargs.1 hargs.2.2
  · next as bs f curried =>
    obtain ⟨has, hbs, hcurried, -⟩ := hargs
    split
    · exact tracedRun_none
    · have hpairs : ∀ p ∈ (List.range as.length).zip (as.zip bs),
          p.2.1.Traced o ∧ p.2.2.Traced o := fun p hp =>
        (List.of_mem_zip (List.of_mem_zip hp).2).imp (has _) (hbs _)
      exact tracedRun_some ((Run.Traced.mapM fun p hp => (Callback.traced_onItem he hev hcurried
        (some p.2.1) (by simpa using (hpairs p hp).1) [p.2.2]
        (by simpa using (hpairs p hp).2) [.int p.1] (by simp) 0).bind
          fun r hr => .pure hr.1).bind fun vs hvs => .pure (by simpa using hvs))
  · exact traced_mapCallback he hev hargs.2.1 hargs.1
  · next items =>
    have hitems := hargs.1
    extract_lets sorted inPlace copy
    have hsorted (descending : Bool) {f : List Datum → Effect}
        (hf : ∀ ds, (∀ d ∈ ds, d.Traced o) → IsTraced o (f ds)) :
        TracedRun o (sorted descending f) :=
      tracedRun_some ((traced_ofResult (fun ds hds => traced_sortNaturally hitems hds) pos).bind
        fun ds hds => .pure (hf ds hds))
    have hinPlace {ds : List Datum} (hds : ∀ d ∈ ds, d.Traced o) : IsTraced o (inPlace ds) := by
      simpa [inPlace] using hds
    have hcopy {ds : List Datum} (hds : ∀ d ∈ ds, d.Traced o) : IsTraced o (copy ds) := by
      simpa [copy] using hds
    clear_value sorted inPlace copy
    split
    · exact hsorted _ fun _ => hinPlace
    · exact hsorted _ fun _ => hinPlace
    · exact hsorted _ fun _ => hcopy
    · exact hsorted _ fun _ => hcopy
    · split
      · exact tracedRun_some (.pure (hinPlace (by simp)))
      · obtain ⟨hd, hothers⟩ := List.forall_mem_cons.mp hitems
        exact tracedRun_some ((Callback.traced_dedup (fun _ _ _ _ => .pure trivial) hd
          hothers).bind fun ds hds => .pure (hinPlace hds))
    · exact tracedRun_none
  · exact tracedRun_none

/-! ## Native functions -/

/-- What a function of the host gives is traced: its failures and log events are allowed. -/
theorem traced_callHost (he : e.Traced o) (name : String) (args : List Datum) (pos : Position) :
    (callHost e name args pos).Traced o := by
  unfold callHost
  split
  · exact .exhausted
  · next values _ =>
    intro m hm
    have hm' : ({ m with
        world := (e.bridge.call name values m.world).world
        log := (e.bridge.call name values m.world).log.reverse ++ m.log } : Machine ω).Traced o :=
      ⟨hm.locals, hm.self, hm.cells, List.forall_mem_append.mpr
        ⟨fun event h => he.logged name values m.world event (List.mem_reverse.mp h), hm.log⟩⟩
    dsimp only
    split
    · exact ⟨traced_encode _, hm'⟩
    · next f hf =>
      refine ⟨?_, hm'⟩
      simpa using he.failed name values m.world f hf

theorem traced_report (he : e.Traced o) (name : String) {d : Datum} (hd : d.Traced o)
    (pos : Position) : (report name d pos : Run ω Datum).Traced o := by
  unfold report
  split
  · next s => exact (Run.Traced.log (by simpa using he.printed s)).bind fun _ _ => .pure (by simp)
  · next s =>
    exact (Run.Traced.log (by simpa using he.debugged s pos.line?)).bind
      fun _ _ => .pure (by simp)
  · exact .pure hd

theorem traced_finish (he : e.Traced o) (name : String) (access : Access) (pos : Position)
    {effect : Effect} (heffect : IsTraced o effect) :
    (finish e name access pos effect).Traced o := by
  obtain ⟨d, left⟩ := effect
  obtain ⟨hd, hleft⟩ := heffect
  have hreport : Run.Traced o (do
      return (← report name d pos, if access == .constant then none else left) : Run ω Effect) := by
    refine (traced_report he name hd pos).bind fun v hv => .pure ⟨hv, ?_⟩
    split
    · simp
    · exact hleft
  unfold finish
  refine (traced_checkSize e _ pos).bind fun _ _ => ?_
  dsimp only
  split
  · exact (traced_checkSize e _ pos).bind fun _ _ => hreport
  · exact hreport

/-- Calling a native function makes failures only where a function of the host fails. -/
theorem traced_callNative (he : e.Traced o) (hev : ev.Traced o) (name : String)
    {args : List Datum} (hargs : ∀ d ∈ args, d.Traced o) (access : Access) (pos : Position) :
    (callNative e ev name args access pos).Traced o := by
  have hmissing : (callNative.missing name args pos : Run ω Effect).Traced o := by
    unfold callNative.missing
    split
    · exact .fault (by simp)
    · exact .raise _ pos
  have hanswered : (callNative.answered e name args access pos).Traced o := by
    unfold callNative.answered
    have hanswer := Library.traced_answer? (o := o) name hargs
    split
    · next d self heq =>
      obtain ⟨hd, hself⟩ := hanswer _ heq
      exact traced_finish he name access pos ⟨hd d rfl, hself⟩
    · exact .raise _ pos
    · exact hmissing
  unfold callNative
  split
  · exact .pure (by simp)
  · refine (traced_tick e pos).bind fun _ _ => ?_
    split
    · exact .jump (by simp)
    · exact .jump (by simpa using hargs)
    · split
      · split
        · exact (traced_callHost he _ _ pos).bind fun d hd =>
            traced_finish he name access pos ⟨hd, by simp⟩
        · exact hmissing
      · split
        · next r hr =>
          exact (traced_callingBack? he hev name hargs pos r hr).bind fun r hr =>
            traced_finish he name access pos hr
        · split
          · exact hmissing
          · split
            · exact .raise _ pos
            · exact hanswered
          · exact hanswered

end Evaluation

end ScriptHost.Script
