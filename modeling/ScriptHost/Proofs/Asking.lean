import Mathlib
import ScriptHost.Proofs.HostCalls

/-!
# Runs that only ask the host

A part of a script may do nothing but ask host functions, one after the other and up to the first
one that fails. What it does is then the sequence of its questions, and the machine is left as it
was but for the world and the log.
-/

namespace ScriptHost

open Script

variable {ω α β γ : Type}

/-- Questions to the host one after the other, with its world and the log. A failure ends them and
comes with the world that it leaves. -/
abbrev Asking (ω : Type) := StateT (ω × List LogEvent) (Except (Failure × ω))

/-- Ask a host function. -/
def Bridge.ask (b : Bridge ω) (name : String) (args : List Value) : Asking ω Value := fun s =>
  let reply := b.call name args s.1
  match reply.outcome with
  | .ok v => .ok (v, reply.world, reply.log.reverse ++ s.2)
  | .error f => .error (f, reply.world)

namespace Script

/-- The machine with another state of the host. -/
def Machine.hosting (m : Machine ω) (s : ω × List LogEvent) : Machine ω :=
  { m with world := s.1, log := s.2 }

/-- What a host function answers is what asking it comes to. -/
theorem ending_hosting (b : Bridge ω) (name : String) (args : List Value) (m : Machine ω)
    (s : ω × List LogEvent) : (b.call name args (m.hosting s).world).ending (m.hosting s) =
      (b.ask name args s).map fun p => (encode p.1, m.hosting p.2) := by
  have hworld : (m.hosting s).world = s.1 := rfl
  rw [hworld, Reply.ending, Bridge.ask]
  cases (b.call name args s.1).outcome <;> rfl

/-- A run does nothing but ask these questions. -/
def Run.Asks (r : Run ω α) (m : Machine ω) (q : Asking ω α) : Prop :=
  ∀ s, r.Ends (m.hosting s) ((q s).map fun p => (p.1, m.hosting p.2))

/-- A run with a value at hand does nothing but ask these questions. -/
def Focus.Asks (r : Focus ω α) (d : Datum) (m : Machine ω) (q : Asking ω α) : Prop :=
  ∀ s, r.Ends d (m.hosting s) ((q s).map fun p => (p.1, d, m.hosting p.2))

namespace Run.Asks

variable {r : Run ω α} {g : α → Run ω β} {m : Machine ω} {a : α} {q : Asking ω α}
  {k : α → Asking ω β}

/-- A run that gives a value asks nothing. -/
theorem of_gives (h : ∀ s, r.Gives (m.hosting s) a (m.hosting s)) : Asks r m (pure a) := h

/-- What comes after questions may depend on the answers and on the state of the host. -/
theorem bind_ends {q : Asking ω γ} {p : γ → α} (h : Asks r m (p <$> q))
    {t : γ → ω × List LogEvent → Except (Failure × ω) (β × Machine ω)}
    (hg : ∀ c s, (g (p c)).Ends (m.hosting s) (t c s)) (s : ω × List LogEvent) :
    (r >>= g).Ends (m.hosting s) (q s >>= fun c => t c.1 c.2) := by
  have hfirst := h s
  have hmap : (p <$> q) s = (q s).map fun c => (p c.1, c.2) := by
    show (q s >>= _) = _
    cases q s <;> rfl
  rw [hmap] at hfirst
  cases hq : q s with
  | error f =>
    rw [hq] at hfirst
    exact fun j => (hfirst j).bind g
  | ok c =>
    rw [hq] at hfirst
    exact .after hfirst (hg c.1 c.2)

/-- Questions one after the other. -/
theorem bind (h : Asks r m q) (hg : ∀ a, Asks (g a) m (k a)) : Asks (r >>= g) m (q >>= k) := by
  intro s
  have hboth := bind_ends (p := id) (by rwa [id_map]) hg s
  have hsame : (q s >>= fun p => (k p.1 p.2).map fun p => (p.1, m.hosting p.2)) =
      ((q >>= k) s).map fun p => (p.1, m.hosting p.2) := by
    show _ = (q s >>= fun p => k p.1 p.2).map _
    cases q s <;> rfl
  rwa [← hsame]

/-- What comes after questions may ask none. -/
theorem before {q : Asking ω γ} {p : γ → α} (h : Asks r m (p <$> q)) {b : α → β}
    (hg : ∀ a s, (g a).Gives (m.hosting s) (b a) (m.hosting s)) :
    Asks (r >>= g) m ((fun c => b (p c)) <$> q) := by
  have hboth := h.bind fun a => of_gives (hg a)
  have hsame : (p <$> q >>= fun a => pure (b a)) = (fun c => b (p c)) <$> q := by
    rw [bind_pure_comp, Functor.map_map]
  rwa [hsame] at hboth

/-- Questions after a run that gives a value. -/
theorem after {k : Asking ω β} (hr : ∀ s, r.Gives (m.hosting s) a (m.hosting s))
    (h : Asks (g a) m k) : Asks (r >>= g) m k := fun s => .after (hr s) (h s)

end Run.Asks

namespace Evaluation

variable {e : Engine ω} {ev : Evaluator ω} {m : Machine ω} {n : ℕ} {d : Datum}
  {q : Asking ω Datum}

/-! ## Calls -/

/-- An expression asks what its rule asks. -/
theorem expression_asks (he : e.Unlimited) {x : Expr}
    (h : (valueRule e (Evaluator.within e n) x).Asks m q) :
    ((Evaluator.within e (n + 1)).expression x).Asks m q :=
  .after (fun s => tick_gives he _ (m.hosting s)) h

/-- A statement asks what its rule asks. -/
theorem statement_asks (he : e.Unlimited) {s : Stmt}
    (h : (actionRule e (Evaluator.within e n) s).Asks m q) :
    ((Evaluator.within e (n + 1)).statement s).Asks m q :=
  .after (fun s => tick_gives he _ (m.hosting s)) h

/-- A function of the script asks what its body asks. -/
theorem callFunction_asks (he : e.Unlimited) {f : Function} {args : List Slot}
    (hbody : f.body ≠ []) (hlevel : m.level < e.limits.maxCallLevels) (pos : Position)
    (h : (statements ev f.body).Asks (entered f args m) q) :
    (callFunction e ev f args pos false).Asks m q := by
  intro s
  have hcall := callFunction_ends (m := m.hosting s) he hbody hlevel pos (h s)
  have hleft : (((q s).map fun p => (p.1, (entered f args m).hosting p.2)).map fun p =>
      (p.1, left (m.hosting s) p.2)) = (q s).map fun p => (p.1, m.hosting p.2) := by
    cases q s <;> rfl
  rwa [hleft] at hcall

/-- A call by name asks the host function once. -/
theorem call_asks (he : e.Unlimited) (hdispatch : function? e hostBinding 2 = none)
    {name : String} {args : List Expr} (hfree : isReserved name = false) {f : Function}
    (hfunction : function? e name args.length = some f)
    (hf : IsStub .callOnly (name, args.length) f) {ds : List Datum}
    (hargs : ∀ s, (callArguments e (Evaluator.within e (n + 3)) args).Gives (m.hosting s) ds
      (m.hosting s)) (hlevel : m.level < e.limits.maxCallLevels) (pos : Position) :
    (valueRule e (Evaluator.within e (n + 3)) (.call name args false pos)).Asks m
      (encode <$> e.bridge.ask name (ds.map decoded)) := by
  intro s
  have hlength : ds.length = args.length := by
    obtain ⟨k, hk⟩ := hargs s 0
    exact length_callArguments hk
  have hcall := callFunction_stub_ends (n := n) (m := m.hosting s) he hdispatch hf hlength
    hlevel pos
  have hasked : ((encode <$> e.bridge.ask name (ds.map decoded)) s).map
      (fun p => (p.1, m.hosting p.2)) =
        (e.bridge.call name (ds.map decoded) (m.hosting s).world).ending (m.hosting s) := by
    rw [ending_hosting]
    show ((e.bridge.ask name (ds.map decoded) s) >>= _).map _ = _
    cases e.bridge.ask name (ds.map decoded) s <;> rfl
  rw [hasked]
  cases hending : (e.bridge.call name (ds.map decoded) (m.hosting s).world).ending
      (m.hosting s) with
  | ok p =>
    rw [hending] at hcall
    intro j
    obtain ⟨k, hk⟩ := hargs s j
    obtain ⟨l, hl⟩ := hcall k
    exact ⟨l, (call_eq hfree hfunction hk pos).trans hl⟩
  | error p =>
    rw [hending] at hcall
    intro j
    obtain ⟨k, hk⟩ := hargs s j
    obtain ⟨x, after, hx, hcarried, hworld⟩ := hcall k
    exact ⟨x, after, (call_eq hfree hfunction hk pos).trans hx, hcarried, hworld⟩

/-! ## Methods of variables -/

/-- A closure that is called by `call` asks what its body asks. -/
theorem callStep_call_asks (he : e.Unlimited) {name : String} {f : Function} {args : List Datum}
    (hclosure : closure? e name = some f) (hargs : f.params.length = args.length)
    (hbody : f.body ≠ []) (hlevel : m.level < e.limits.maxCallLevels)
    (h : (statements ev f.body).Asks (entered f (args.map .own) m) q) (firstPos pos : Position) :
    (callStep e ev "call" args .place firstPos pos).Asks (.fnPtr name []) m q := by
  have hpointee : pointee? e name (args.map .own) = some f := by
    rw [pointee?, hclosure, Option.filter_some, List.length_map, hargs]
    simp
  have hcall : (callPointer e ev name [] (args.map .own) pos).Asks m q := by
    rw [callPointer]
    simp only [List.map_nil, List.nil_append, hpointee]
    exact callFunction_asks he hbody hlevel pos h
  intro s
  have hlift := Focus.Ends.lift (hcall s) (.fnPtr name [])
  have hsame : ((q s).map (fun p => (p.1, m.hosting p.2))).map
      (fun p => (p.1, Datum.fnPtr name [], p.2)) =
        (q s).map fun p => (p.1, .fnPtr name [], m.hosting p.2) := by
    cases q s <;> rfl
  rwa [← hsame]

/-- The last step of a path that is a method. -/
theorem follow_method_ends {name : String} {args : List Datum} {firstPos pos : Position}
    {o : Except (Failure × ω) (Datum × Datum × Machine ω)}
    (h : (callStep e ev name args .place firstPos pos).Ends d m o) (opPos : Position) :
    (follow e ev .place [(false, .method name args firstPos opPos pos)]).Ends d m o := by
  cases o with
  | ok p => exact follow_method_gives h opPos
  | error p => exact fun j => Focus.FailsOn.after rfl (Focus.FailsOn.bind (h j) _)

/-- A run on the value of a variable, which is put back. -/
theorem onVariable_ends {α : Type} {x : String} {known : Bool} (h : Holds e m x known d)
    (pos : Position) {run : Access → Focus ω α}
    {o : Except (Failure × ω) (α × Datum × Machine ω)} (hrun : (run .place).Ends d m o) :
    (onVariable e x known pos run).Ends m (o.map fun p => (p.1, p.2.2.setVariable x p.2.1)) := by
  refine .after (variableValue_gives h pos) ?_
  have hfocus := Run.Ends.focus hrun (setVariable_uncounted x) (Machine.setVariable_world x)
  have hplain (j : ℕ) : (if isFunctionWord e x known then Run.focusLost d (run .copy)
      else fun m =>
        let isConstant := ((m.lookup? x).map (·.isConstant)).getD false
        (Run.focus d (run (placeAccess isConstant)) (Machine.setVariable x)) m) (m.counting j) =
      Run.focus d (run .place) (Machine.setVariable x) (m.counting j) := by
    have hlookup : (m.counting j).lookup? x = some ⟨x, false, .own d⟩ := h.lookup
    refine (congrFun (if_neg (by simp [h.notFunction])) _).trans ?_
    simp only [hlookup]
    rfl
  cases o with
  | ok p =>
    intro j
    obtain ⟨k, hk⟩ := hfocus j
    exact ⟨k, (hplain j).trans hk⟩
  | error p =>
    intro j
    obtain ⟨x, after, hx, hcarried, hworld⟩ := hfocus j
    exact ⟨x, after, (hplain j).trans hx, hcarried, hworld⟩

/-- The path of one method, whose arguments may ask the host. -/
theorem path_method_asks (he : e.Unlimited) (name : String) {args : List Expr} (hne : args ≠ [])
    {q : Asking ω γ} {values : γ → List Datum} (hargs : (arguments e ev args).Asks m (values <$> q))
    (opPos pos : Position) : (path e ev [.method name args false opPos pos]).Asks m
      ((fun c => [(false, .method name (values c) ((args.head?.map Expr.startPosition).getD .none)
        opPos pos)]) <$> q) := by
  obtain ⟨x, rest, rfl⟩ := List.exists_cons_of_ne_nil hne
  have hstep : (stepOf e ev (.method name (x :: rest) false opPos pos)).Asks m
      ((fun c => (false, Step.method name (values c) x.startPosition opPos pos)) <$> q) :=
    hargs.before (b := fun values => (false, Step.method name values x.startPosition opPos pos))
      fun _ s => .pure _ (m.hosting s)
  exact .after (fun s => tick_gives he _ (m.hosting s))
    (hstep.before (b := fun step => [step]) fun _ s => .bind (.pure _ _) (.pure _ (m.hosting s)))

/-- What is reached from a variable by a path whose arguments may ask the host. -/
theorem chain_ends (he : e.Unlimited) {x : String} {known : Bool} {links : List Link}
    (h : Holds e m x known d) (pos : Position) {q : Asking ω γ} {steps : γ → Path}
    (hsteps : (path e (Evaluator.within e n) links).Asks m (steps <$> q))
    {t : γ → ω × List LogEvent → Except (Failure × ω) (Datum × Datum × Machine ω)}
    (hrun : ∀ c s, (follow e (Evaluator.within e n) .place (steps c)).Ends d (m.hosting s) (t c s))
    (s : ω × List LogEvent) :
    ((Evaluator.within e (n + 1)).expression (.chain (.var x known pos) links)).Ends (m.hosting s)
      (q s >>= fun c => (t c.1 c.2).map fun r => (r.1, r.2.2.setVariable x r.2.1)) := by
  refine .after (tick_gives he _ _) (hsteps.bind_ends (t := fun c u =>
    (t c u).map fun r => (r.1, r.2.2.setVariable x r.2.1)) (fun c u => ?_) s)
  have hlookup : (m.hosting u).lookup? x = some ⟨x, false, .own d⟩ := h.lookup
  refine .after (tick_gives he pos _) (.machine (fun j => rfl) ?_)
  rw [hlookup]
  exact .placed (onVariable_ends ⟨h.notFunction, hlookup⟩ pos (hrun c u)) _

/-! ## Loops -/

/-- The body of a loop comes to a round. -/
theorem bodyRound_ends {body : List Stmt} (hbody : body ≠ [])
    {o : Except (Failure × ω) (Datum × Machine ω)} (h : (statements ev body).Ends m o) :
    (bodyRound ev body).Ends m (o.map fun p => (.goOn, p.2.rewind m.locals.length)) := by
  cases o with
  | ok p => exact bodyRound_gives hbody h
  | error p =>
    intro j
    refine bodyRound_failsOn ?_
    rw [blockRule, if_neg (by simpa using hbody)]
    exact (h j).afterwards fun _ _ => rfl

variable {σ : Type} {f : α → Datum} {machine : List α → σ → Machine ω}
  {step : σ → α → Except (Failure × ω) σ} {items : List α}

/-- Rounds over items, up to the first one that fails; the machine depends on the items so far and
on what the rounds have left. -/
theorem forRounds_ends {round : Run ω Round} (hround : ∀ done s, ∀ a ∈ items,
      round.Ends (setAt 0 (f a) (machine done s))
        ((step s a).map fun t => (.goOn, machine (done ++ [a]) t)))
    (done : List α) (s : σ) (i : ℤ) :
    (forRounds round false (items.length + 1) i (.list (items.map f))).Ends (machine done s)
      ((items.foldlM step s).map fun t => (.unit, machine (done ++ items) t)) := by
  induction items generalizing done s i with
  | nil =>
    rw [List.append_nil]
    exact fun j => ⟨j, rfl⟩
  | cons a items ih =>
    have hfirst := hround done s a List.mem_cons_self
    rw [List.foldlM_cons, List.length_cons]
    cases hstep : step s a with
    | error p =>
      rw [hstep] at hfirst
      intro j
      obtain ⟨x, after, hr, hx, hw⟩ := hfirst j
      rw [← setAt_uncounted] at hr
      refine ⟨x, after, ?_, hx, hw⟩
      rw [List.map_cons, forRounds]
      simp only [Items.next?, Bool.false_eq_true, if_false, hr]
    | ok t =>
      rw [hstep] at hfirst
      have hrest := ih (fun done s b hb => hround done s b (List.mem_cons_of_mem a hb))
        (done ++ [a]) t (i + 1)
      rw [List.append_assoc, List.singleton_append] at hrest
      show Run.Ends _ _ ((items.foldlM step t).map _)
      -- The first round has ended with a value, so the loop does what is left of it.
      have hgoOn (j : ℕ) : ∃ k, forRounds round false (items.length + 1 + 1) i
          (.list ((a :: items).map f)) ((machine done s).counting j) =
            forRounds round false (items.length + 1) (i + 1) (.list (items.map f))
              ((machine (done ++ [a]) t).counting k) := by
        obtain ⟨k, hk⟩ := hfirst j
        rw [← setAt_uncounted] at hk
        refine ⟨k, ?_⟩
        rw [List.map_cons, forRounds]
        simp only [Items.next?, Bool.false_eq_true, if_false, hk]
      cases hall : items.foldlM step t with
      | error p =>
        rw [hall] at hrest
        intro j
        obtain ⟨k, hk⟩ := hgoOn j
        obtain ⟨x, after, hr, hx, hw⟩ := hrest k
        exact ⟨x, after, hk.trans hr, hx, hw⟩
      | ok u =>
        rw [hall] at hrest
        intro j
        obtain ⟨k, hk⟩ := hgoOn j
        obtain ⟨l, hl⟩ := hrest k
        exact ⟨l, hk.trans hl⟩

/-- A loop over the items of an array; its variable is gone after it. -/
theorem forLoop_ends (he : e.Unlimited) {name : String} {source : Expr} {body : List Stmt}
    (bodyPos pos : Position) (machine : List α → σ → Machine ω)
    (step : σ → α → Except (Failure × ω) σ) {s : σ} {size : ℕ}
    (hsource : ((Evaluator.within e n).expression source).Gives m (.array (items.map f)) m)
    (hbody : body ≠ []) (hfirst : machine [] s = m.declare name false (.own .unit))
    (hsize : ∀ done s, (machine done s).locals.length = size)
    (hround : ∀ done s, ∀ a ∈ items, (statements (Evaluator.within e n) body).Ends
      (setAt 0 (f a) (machine done s)) ((step s a).map fun t => (.unit, machine (done ++ [a]) t))) :
    ((Evaluator.within e (n + 1)).statement (.forLoop name none source body bodyPos pos)).Ends m
      ((items.foldlM step s).map fun t => (.unit, (machine items t).rewind m.locals.length)) := by
  have hbodyRound : ∀ done s, ∀ a ∈ items, (bodyRound (Evaluator.within e n) body).Ends
      (setAt 0 (f a) (machine done s))
        ((step s a).map fun t => (.goOn, machine (done ++ [a]) t)) := by
    intro done s a ha
    have hends := bodyRound_ends hbody (hround done s a ha)
    have hrewind (t : σ) : (machine (done ++ [a]) t).rewind
        (setAt 0 (f a) (machine done s)).locals.length = machine (done ++ [a]) t := by
      rw [setAt_length, hsize, Machine.rewind, hsize, Nat.sub_self, List.drop_zero]
    cases hstep : step s a with
    | error p =>
      rw [hstep] at hends
      exact hends
    | ok t =>
      rw [hstep] at hends
      have hgives : (bodyRound (Evaluator.within e n) body).Gives _ _ _ := hends
      rwa [hrewind] at hgives
  have hrounds := forRounds_ends hbodyRound [] s 0
  rw [hfirst] at hrounds
  have hdeclare : (Run.update (Machine.declare name false (.own .unit))).Gives m ()
      (m.declare name false (.own .unit)) := .update (fun _ _ => rfl) m
  have hloop := (Run.Ends.after (g := fun _ => forRounds (bodyRound (Evaluator.within e n) body)
    false (items.length + 1) 0 (.list (items.map f))) hdeclare hrounds).afterwards
    (g := fun before after => after.rewind before.locals.length) (fun _ _ _ => rfl) fun _ _ => rfl
  have hsame : ((items.foldlM step s).map fun t => (Datum.unit, machine ([] ++ items) t)).map
      (fun p => (p.1, p.2.rewind m.locals.length)) =
        (items.foldlM step s).map fun t => (.unit, (machine items t).rewind m.locals.length) := by
    cases items.foldlM step s <;> rfl
  rw [hsame] at hloop
  refine .after (tick_gives he _ m) (.after hsource ?_)
  show ((do
    .update (Machine.declare name false (.own .unit))
    forRounds (if body.isEmpty then do tick e bodyPos; pure .goOn
      else bodyRound (Evaluator.within e n) body) false ((items.map f).length + 1) 0
        (.list (items.map f)) : Run ω Datum).afterwards fun before after =>
          after.rewind before.locals.length).Ends m _
  rw [if_neg (by simpa using hbody), List.length_map]
  exact hloop

end Evaluation

end Script

/-- A loop that collects the answers to questions asks them one after the other. -/
theorem foldlM_collect (q : α → Asking ω β) (items : List α) (done : List β)
    (s : ω × List LogEvent) :
    items.foldlM (fun t a => (q a t.2).map fun p => (t.1 ++ [p.1], p.2)) (done, s) =
      (items.mapM q s).map fun p => (done ++ p.1, p.2) := by
  induction items generalizing done s with
  | nil =>
    show Except.ok (done, s) = Except.ok (done ++ [], s)
    rw [List.append_nil]
  | cons a items ih =>
    rw [List.foldlM_cons, List.mapM_cons]
    show _ = (q a s >>= fun p => (items.mapM q p.2 >>= fun r => Except.ok (p.1 :: r.1, r.2))).map _
    cases hq : q a s with
    | error f => rfl
    | ok p =>
      refine (ih (done ++ [p.1]) p.2).trans ?_
      show _ = (items.mapM q p.2 >>= fun r => Except.ok (p.1 :: r.1, r.2)).map _
      cases items.mapM q p.2 with
      | error f => rfl
      | ok r =>
        show Except.ok (done ++ [p.1] ++ r.1, r.2) = Except.ok (done ++ p.1 :: r.1, r.2)
        rw [List.append_assoc, List.singleton_append]

end ScriptHost
