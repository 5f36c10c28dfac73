import SieveChain.Proofs.StageAccount

/-!
# Every operation of a stage keeps its account

One lemma for each task says what becomes of the account of a stage when the move of the
task is answered, whatever the answer is. Together they carry the account through a run.
-/

namespace SieveChain.Stage
open Wire Record

variable {ceiling : Option Int32} {a : Account} {e : Option Event} {call call' : Activity}

theorem Torn.drop {p : Int32} {vs : List Int32} {child : Child} {heldBack : List UInt8}
    (h : Torn ceiling a p vs child heldBack) : Torn ceiling a p vs child [] where
  accepted := h.accepted
  received := h.received
  launches := h.launches
  child := h.child
  recorded := h.recorded
  sent := by
    rw [List.append_nil]
    exact (List.prefix_append _ _).trans h.sent
  order := by
    intro hs
    refine h.order fun hn => hs ?_
    rw [(List.append_eq_nil_iff.1 hn).1]
    rfl
  smooth := h.smooth

/-- A write only moves bytes from what is held back to what has been sent. -/
theorem Torn.send {p : Int32} {vs : List Int32} {child : Child} {bytes heldBack left : List UInt8}
    (h : Torn ceiling a p vs child heldBack) (hb : bytes ++ left = heldBack) :
    Torn ceiling { a with sent := a.sent ++ bytes } p vs child left :=
  { h with
    sent := by rw [List.append_assoc, hb]; exact h.sent
    order := by rw [List.append_assoc, hb]; exact h.order }

theorem Torn.broken {p : Int32} {vs : List Int32} {child : Child} {heldBack : List UInt8}
    (h : Torn ceiling a p vs child heldBack) :
    Torn ceiling { a with smooth := false } p vs child heldBack := { h with smooth := rfl }

theorem GivingUp.output {p : Int32} {vs : List Int32} {child : Child} {o : Outbox} {f : Fault}
    (h : Torn ceiling a p vs child o.bytes) (hh : a.Holding) (b : Activity) :
    GivingUp ceiling a (b.giveUpOutput o (.givenUp true (some p) child f)).task := by
  unfold Activity.giveUpOutput
  split
  · next he =>
    rw [Outbox.isEmpty_iff.1 he] at h
    exact .shut h hh
  · next he => exact .empty h hh (Outbox.bytes_ne_nil (Bool.eq_false_iff.2 he))

/-- An output that is given up within a step, because closing it has failed. -/
theorem Stepping.severed {l : Ledger} {p : Int32} {vs : List Int32} {child : Child} {o : Outbox}
    {f : Fault} {input : Intake} (h : Torn ceiling a p vs child o.bytes) (hh : a.Holding)
    (hne : o.bytes ≠ []) (b : Activity) :
    Stepping ceiling a l (b.giveUpOutput o (.severed input p child f)).task := by
  rw [Activity.giveUpOutput, if_neg]
  · exact .emptySevered h hh hne
  · intro he
    exact hne (Outbox.isEmpty_iff.1 he)

/-- Emptying an output that is to be given up: it goes on, or the output is given up. -/
theorem Torn.emptied {phase : Phase} {l : Ledger} {p : Int32} {vs : List Int32} {child : Child}
    {o : Outbox} {after : Shutting} (h : Torn ceiling a p vs child o.bytes) (hh : a.Holding)
    (hne : o.bytes ≠ [])
    (hm : (Activity.move ⟨phase, l, .empty o after⟩).Answered e call') :
    (a.after e).Holding ∧
      ((∃ o', call'.task = .empty o' after ∧ o'.bytes ≠ [] ∧
          Torn ceiling (a.after e) p vs child o'.bytes) ∨
        (call'.task = .shut after ∧ Torn ceiling (a.after e) p vs child [])) := by
  cases hm with
  | @send _ _ _ reply fits =>
  have hg := Outbox.absorb_handed hne a after.child reply
  dsimp only [Activity.emptied, Account.after]
  generalize a.add _ = a', o.absorb reply = outcome at hg ⊢
  cases hg with
  | more hb ht hne' => exact ⟨{ hh with }, .inl ⟨_, rfl, hne', h.send hb⟩⟩
  | all hb ht he =>
    rw [he] at hb
    exact ⟨{ hh with }, .inr ⟨rfl, h.send hb⟩⟩
  | failed => exact ⟨{ hh with }, .inr ⟨rfl, h.drop.broken⟩⟩

theorem GivingUp.step (h : GivingUp ceiling a call.task) (hm : call.move.Answered e call') :
    GivingUp ceiling (a.after e) call'.task := by
  obtain ⟨phase, l, task⟩ := call
  cases h with
  | leaveAlone h hl =>
    cases hm
    exact .endedAlone { h with } rfl
  | endedAlone => cases hm
  | empty h hh hne =>
    obtain ⟨hh', ⟨o', ht, hne', h'⟩ | ⟨ht, h'⟩⟩ := h.emptied hh hne hm
    · rw [ht]
      exact .empty h' hh' hne'
    · rw [ht]
      exact .shut h' hh'
  | shut h hh =>
    cases hm
    exact .leave { h with } rfl hh.left hh.reaped
  | leave h hs hl hr =>
    cases hm
    exact .reap { h with } hs rfl hr
  | reap h hs hl hr =>
    cases hm with
    | reap result =>
    dsimp only [Activity.reaped]
    cases result with
    | ok u =>
      rw [Account.after, Account.add_reaped_ok]
      exact .ended { h with } hs hl rfl
    | error f' =>
      rw [Account.after, Account.add_reaped_error]
      dsimp only
      split
      · exact .ended { h with smooth := rfl } hs hl rfl
      · exact .ended { h with smooth := rfl } hs hl rfl
  | ended => cases hm

/-- A failure leaves of a stage that filters what has been sent and is held back. -/
theorem Filtering.torn {l : Ledger} {p : Int32} {vs ws : List Int32} {link : Link}
    (h : Filtering ceiling a l p vs link) (hr : values a.received = p :: ws)
    (hw : vs <+: ws) :
    Torn ceiling { a with smooth := false } p ws link.child link.output.bytes where
  accepted := h.accepted
  received := hr
  launches := h.launches
  child := h.child
  recorded := by
    show a.recorded <+: lineBytes p
    exact h.recorded ▸ List.prefix_refl _
  sent := by
    show a.sent ++ link.output.bytes <+: _
    rw [h.sent]
    exact encodeAll_mono (hw.filter _)
  order := fun _ => ⟨h.recorded, h.committed⟩
  smooth := rfl

theorem Waiting.childless {l : Ledger} (h : Waiting a l) :
    Childless { a with smooth := false } :=
  { h with launches := by rw [h.launches]; exact Nat.zero_le 1, smooth := rfl }

theorem Waiting.ledger {l l' : Ledger} (h : Waiting a l) (hf : l'.forwarded = l.forwarded) :
    Waiting a l' := { h with forwarded := hf.trans h.forwarded }

theorem Ledger.forwarded_noteTorn (l : Ledger) (n : Nat) :
    (l.noteTorn n).forwarded = l.forwarded := by
  unfold Ledger.noteTorn
  split <;> rfl

theorem Ledger.discarded_noteTorn (l : Ledger) (n : Nat) :
    (l.noteTorn n).discarded = l.discarded := by
  unfold Ledger.noteTorn
  split <;> rfl

section Filtering

variable {l : Ledger} {p v : Int32} {vs : List Int32} {link : Link}

/-- Taking a value for the child. -/
theorem Filtering.put (h : Filtering ceiling a l p vs link) (hv : passes p v = true) :
    Filtering ceiling a l p (vs ++ [v]) { link with output := link.output.put v } :=
  { h with
    sent := by
      rw [Outbox.bytes_put, ← List.append_assoc, h.sent, List.filter_append,
        List.filter_cons_of_pos hv, encodeAll_append]
      simp
    taken := by
      rw [List.filter_append, List.filter_cons_of_pos hv, List.length_append, ← h.taken]
      rfl
    counted := by
      rw [List.length_append, ← h.counted]
      rfl }

/-- Dropping a multiple. -/
theorem Filtering.skip {l' : Ledger} (h : Filtering ceiling a l p vs link)
    (hv : passes p v = false) (hl : l'.discarded = l.discarded + 1) :
    Filtering ceiling a l' p (vs ++ [v]) link := by
  have hfilter : (vs ++ [v]).filter (passes p) = vs.filter (passes p) := by
    rw [List.filter_append, List.filter_cons_of_neg (by rw [hv]; exact Bool.false_ne_true)]
    simp
  exact
    { h with
      sent := by rw [hfilter, h.sent]
      taken := by rw [hfilter, h.taken]
      counted := by
        have := h.counted
        rw [List.length_append, List.length_singleton]
        omega }

/-- A write only moves bytes from the outbox to what has been sent. -/
theorem Filtering.send {bytes : List UInt8} {o : Outbox} (h : Filtering ceiling a l p vs link)
    (hb : bytes ++ o.bytes = link.output.bytes) (ht : o.taken = link.output.taken) :
    Filtering ceiling { a with sent := a.sent ++ bytes } l p vs { link with output := o } :=
  { h with
    sent := by
      show a.sent ++ bytes ++ o.bytes = _
      rw [List.append_assoc, hb, h.sent]
    taken := ht.trans h.taken
    counted := by
      show l.discarded + o.taken = _
      rw [ht, h.counted] }

theorem Filtering.ledger {l' : Ledger} (h : Filtering ceiling a l p vs link)
    (hd : l'.discarded = l.discarded) : Filtering ceiling a l' p vs link :=
  { h with counted := by rw [hd, h.counted] }

/-- Closing a channel once the input has ended. -/
theorem Filtering.draining {input : Intake} (h : Filtering ceiling a l p vs link)
    (he : a.ended = true) (hr : values a.received = p :: vs) :
    Stepping ceiling a l (Stage.step { ledger := l, state := .draining input p link }).task := by
  dsimp only [Stage.step]
  split
  · next hb => exact .shut h he hr (Outbox.isEmpty_iff.1 hb)
  · next hb => exact .close h he hr (Outbox.bytes_ne_nil (Bool.eq_false_iff.2 hb))

end Filtering

theorem Activity.task_settle (b : Activity) (state : State) :
    (b.settle state).task = .ended state (.ok state.phase) := by
  unfold Activity.settle
  split <;> rfl

/-- A step that ends well goes on with the next one; what has been noted does not matter. -/
theorem Stepping.settle {b : Activity} {state : State} (hp : state.phase ≠ .done)
    (h : ∀ l : Ledger, l.forwarded = b.ledger.forwarded → l.discarded = b.ledger.discarded →
      Stepping ceiling a l (Stage.step { ledger := l, state }).task) :
    Stepping ceiling a (b.settle state).ledger (b.settle state).task := by
  unfold Activity.settle
  split
  · exact .settled hp (h _ rfl rfl)
  · exact .settled hp (h _ rfl rfl)

/-- Receiving the first value. -/
theorem Stepping.first_step {l : Ledger} {phase : Phase} {input : Intake}
    (hc : l.ceiling = ceiling) (h : Waiting a l) (he : a.ended = false)
    (hr : a.received = input.held) (hh : input.held.length < width) (hd : l.discarded = 0)
    (hm : (Activity.move ⟨phase, l, .first input none⟩).Answered e call') :
    Stepping ceiling (a.after e) call'.ledger call'.task := by
  cases hm with
  | @read _ _ reply fits =>
  have hcame := Intake.absorb_came fits hh
  dsimp only
  generalize input.absorb reply = outcome at hcame ⊢
  cases hcame with
  | interrupted hi =>
    rw [Account.after, Account.add_read_interrupted _ hi]
    exact .first h he hr hh hd
  | failed hi =>
    rw [Account.after, Account.add_read_failed _ hi]
    refine .failed ?_
    exact .leaveAlone h.childless h.left
  | ended =>
    have hv : values a.received = [] := by rw [hr]; exact values_eq_nil hh
    refine .idle ({ h.ledger (l.forwarded_noteTorn _) with }) rfl ?_ ?_
    · show owned? ceiling (values a.received) = none
      rw [hv]
      rfl
    · show (l.noteTorn _).discarded = (values a.received).length
      rw [hv, l.discarded_noteTorn, hd]
      rfl
  | more hl =>
    rw [Account.after, Account.add_bytes]
    refine .first { h with } he ?_ hl hd
    rw [hr]
  | @value b bs v hv =>
    rw [Account.after, Account.add_bytes, hr, hv]
    dsimp only [Activity.gotFirst]
    rw [hc]
    cases hacc : accepts ceiling v with
    | true => exact .launch { h with } he hacc rfl rfl hd
    | false =>
      have hn : ([] : List Int32).length = 0 := rfl
      refine .skip { h with } he hacc ?_ width_pos hn
      rw [encodeAll_cons, encodeAll_nil]
      simp

/-- Skipping behind a first value that is not accepted. -/
theorem Stepping.skip_step {l : Ledger} {phase : Phase} {input : Intake} {v : Int32}
    {vs : List Int32} (h : Waiting a l) (he : a.ended = false)
    (hv : accepts ceiling v = false) (hr : a.received = encodeAll (v :: vs) ++ input.held)
    (hh : input.held.length < width)
    (hm : (Activity.move ⟨phase, l, .skip input none vs.length⟩).Answered e call') :
    Stepping ceiling (a.after e) call'.ledger call'.task := by
  cases hm with
  | @read _ _ reply fits =>
  have hcame := Intake.absorb_came fits hh
  dsimp only
  generalize input.absorb reply = outcome at hcame ⊢
  cases hcame with
  | interrupted hi =>
    rw [Account.after, Account.add_read_interrupted _ hi]
    exact .skip h he hv hr hh rfl
  | failed hi =>
    rw [Account.after, Account.add_read_failed _ hi]
    refine .failed ?_
    exact .leaveAlone h.childless h.left
  | ended =>
    have hvs : values a.received = v :: vs := by rw [hr]; exact values_torn _ hh
    refine .idle ({ h.ledger (l.forwarded_noteTorn _) with }) rfl ?_ ?_
    · show owned? ceiling (values a.received) = none
      rw [hvs, owned?, hv]
      rfl
    · show 1 + vs.length = (values a.received).length
      rw [hvs, List.length_cons, Nat.add_comm]
  | more hl =>
    rw [Account.after, Account.add_bytes]
    refine .skip { h with } he hv ?_ hl rfl
    rw [hr, List.append_assoc]
  | @value b bs w hw =>
    rw [Account.after, Account.add_bytes, hr, List.append_assoc, hw]
    have hn : (vs ++ [w]).length = vs.length + 1 := List.length_append
    refine .skip { h with } he hv ?_ width_pos hn
    rw [← List.cons_append, encodeAll_append, List.append_nil]
    simp

/-- Launching the child. -/
theorem Stepping.launch_step {l : Ledger} {phase : Phase} {input : Intake} {v : Int32}
    (h : Waiting a l) (he : a.ended = false) (hv : accepts ceiling v = true)
    (hr : a.received = encode v) (hi : input.held = []) (hd : l.discarded = 0)
    (hm : (Activity.move ⟨phase, l, .launch input none v⟩).Answered e call') :
    Stepping ceiling (a.after e) call'.ledger call'.task := by
  cases hm with
  | launch result =>
  cases result with
  | error f =>
    refine .failed ?_
    refine .leaveAlone { h with launches := ?_, smooth := rfl } h.left
    have hnone := h.launches
    show a.launches + 1 ≤ 1
    omega
  | ok child =>
    refine .record hv hr hi ?_ (fun piece => piece_ne_nil) h.committed ?_ rfl h.sent
      ⟨h.shut, h.left, h.reaped⟩ he h.smooth h.forwarded hd
    · show a.recorded ++ _ = _
      rw [h.recorded, bytes_ofValue, List.nil_append]
    · show a.launches + 1 = 1
      rw [h.launches]

/-- Writing the line, and committing it. -/
theorem Stepping.record_step {l : Ledger} {phase : Phase} {input : Intake} {p : Int32}
    {child : Child} {entry : Entry} (hv : accepts ceiling p = true) (hr : a.received = encode p)
    (hi : input.held = []) (hb : a.recorded ++ entry.bytes = lineBytes p)
    (hne : ∀ piece ∈ entry.pieces, piece ≠ []) (hc : a.committed = false)
    (hn : a.launches = 1) (hk : a.child = some child) (hs : a.sent = []) (hh : a.Holding)
    (he : a.ended = false) (hsm : a.smooth = true) (hf : l.forwarded = 0) (hd : l.discarded = 0)
    (hm : (Activity.move ⟨phase, l, .record input p ⟨.empty, child⟩ entry⟩).Answered e call') :
    Stepping ceiling (a.after e) call'.ledger call'.task := by
  have hvs : values a.received = [p] := by
    rw [hr]
    exact values_encodeAll [p]
  have torn (committed : Bool) :
      Torn ceiling { a with committed, smooth := false } p [] child Outbox.empty.bytes :=
    { accepted := hv
      received := hvs
      launches := hn
      child := hk
      recorded := by rw [← hb]; exact List.prefix_append _ _
      sent := by change a.sent ++ [] <+: _; rw [hs]; exact List.nil_prefix
      order := by intro ho; exact absurd (congrArg (· ++ []) hs) ho
      smooth := rfl }
  simp only [Activity.move] at hm
  split at hm
  · next hp =>
    have hline : a.recorded = lineBytes p := by
      rw [← hb, Entry.bytes, hp, List.flatten_nil, List.append_nil]
    cases hm with
    | commit result =>
    cases result with
    | ok u =>
      rw [Account.after, Account.add_committed]
      refine .settle (fun hp => by cases hp) fun l' hf' hd' => ?_
      have hfiltering : Filtering ceiling { a with committed := true } l' p [] ⟨.empty, child⟩ :=
        { accepted := hv
          recorded := hline
          committed := rfl
          launches := hn
          child := hk
          smooth := hsm
          shut := hh.shut
          left := hh.left
          reaped := hh.reaped
          sent := congrArg (· ++ []) hs
          taken := rfl
          counted := hd'.trans hd }
      refine .next hfiltering he ?_ ?_
      · rw [hi]
        exact hr
      · rw [hi]
        exact width_pos
    | error err =>
      rw [Account.after, Account.add_uncommitted]
      refine .failed ?_
      exact GivingUp.output (torn false) { hh with } _
  · next piece rest hp =>
    cases hm with
    | @record _ _ reply fits =>
    have hw := Entry.absorb_wrote hp hne reply
    dsimp only [Activity.wrote]
    generalize entry.absorb reply = outcome at hw ⊢
    cases hw with
    | interrupted hi' =>
      rw [Account.after, Account.add_recorded_interrupted _ _ hi']
      exact .record hv hr hi hb hne hc hn hk hs hh he hsm hf hd
    | failed hi' =>
      rw [Account.after, Account.add_recorded_failed _ _ hi']
      refine .failed ?_
      exact GivingUp.output (torn a.committed) { hh with } _
    | stuck =>
      rw [Account.after, Account.add_recorded_stuck]
      refine .failed ?_
      exact GivingUp.output (torn a.committed) { hh with } _
    | some hb' hne' hw =>
      rw [Account.after, Account.add_recorded_took]
      refine .record hv hr hi ?_ hne' hc hn hk hs { hh with } he hsm hf hd
      rw [List.append_assoc, hb', hb]

/-- Receiving the next value to filter. -/
theorem Stepping.next_step {l : Ledger} {phase : Phase} {input : Intake} {p : Int32}
    {vs : List Int32} {link : Link} (h : Filtering ceiling a l p vs link) (he : a.ended = false)
    (hr : a.received = encodeAll (p :: vs) ++ input.held) (hh : input.held.length < width)
    (hm : (Activity.move ⟨phase, l, .next input p link⟩).Answered e call') :
    Stepping ceiling (a.after e) call'.ledger call'.task := by
  cases hm with
  | @read _ _ reply fits =>
  have hcame := Intake.absorb_came fits hh
  have hvs : values a.received = p :: vs := by rw [hr]; exact values_torn _ hh
  dsimp only
  generalize input.absorb reply = outcome at hcame ⊢
  cases hcame with
  | interrupted hi =>
    rw [Account.after, Account.add_read_interrupted _ hi]
    exact .next h he hr hh
  | failed hi =>
    rw [Account.after, Account.add_read_failed _ hi]
    refine .failed ?_
    exact GivingUp.output (h.torn hvs (List.prefix_refl vs)) { h with } _
  | ended =>
    rw [Account.after, Account.add_end]
    refine .settle (fun hp => by cases hp) fun l' hf hd => ?_
    have h' : Filtering ceiling { a with ended := true } l p vs link := { h with }
    exact (h'.ledger (hd.trans (l.discarded_noteTorn _))).draining rfl hvs
  | more hl =>
    rw [Account.after, Account.add_bytes]
    refine .next { h with } he ?_ hl
    rw [hr, List.append_assoc]
  | @value b bs v hv =>
    rw [Account.after, Account.add_bytes]
    have hr' : a.received ++ b :: bs = encodeAll (p :: vs) ++ encode v := by
      rw [hr, List.append_assoc, hv]
    have hall : a.received ++ b :: bs = encodeAll (p :: (vs ++ [v])) ++ [] := by
      rw [hr', ← List.cons_append, encodeAll_append]
      simp
    have h' : Filtering ceiling { a with received := a.received ++ b :: bs } l p vs link :=
      { h with }
    dsimp only [Activity.gotNext]
    cases hv' : passes p v with
    | false => exact .next (h'.skip hv' rfl) he hall width_pos
    | true =>
      rw [if_pos rfl]
      cases hroom : link.output.hasRoom with
      | true => exact .next (h'.put hv') he hall width_pos
      | false => exact .forward h' he hr' rfl hv' (Outbox.bytes_ne_nil_of_full hroom)

/-- Making room for a value. -/
theorem Stepping.forward_step {l : Ledger} {phase : Phase} {input : Intake} {p v : Int32}
    {vs : List Int32} {link : Link} (h : Filtering ceiling a l p vs link) (he : a.ended = false)
    (hr : a.received = encodeAll (p :: vs) ++ encode v) (hi : input.held = [])
    (hv : passes p v = true) (hne : link.output.bytes ≠ [])
    (hm : (Activity.move ⟨phase, l, .forward input p link v⟩).Answered e call') :
    Stepping ceiling (a.after e) call'.ledger call'.task := by
  have hall : a.received = encodeAll (p :: (vs ++ [v])) ++ input.held := by
    rw [hr, hi, ← List.cons_append, encodeAll_append]
    simp
  have hh : input.held.length < width := by rw [hi]; exact width_pos
  have hvs : values a.received = p :: (vs ++ [v]) := by rw [hall]; exact values_torn _ hh
  have htorn := h.torn hvs (List.prefix_append vs [v])
  cases hm with
  | @send _ _ _ reply fits =>
  have hg := Outbox.absorb_handed hne a link.child reply
  dsimp only [Activity.madeRoom, Account.after]
  generalize a.add _ = a', link.output.absorb reply = outcome at hg ⊢
  cases hg with
  | more hb ht hne' => exact .forward (h.send hb ht) he hr hi hv hne'
  | all hb ht hbo => exact .next ((h.send hb ht).put hv) he hall hh
  | failed =>
    refine .failed ?_
    exact GivingUp.output htorn { h with } _

/-- Handing on the last values. -/
theorem Stepping.close_step {l : Ledger} {phase : Phase} {input : Intake} {p : Int32}
    {vs : List Int32} {link : Link} (h : Filtering ceiling a l p vs link) (he : a.ended = true)
    (hr : values a.received = p :: vs) (hne : link.output.bytes ≠ [])
    (hm : (Activity.move ⟨phase, l, .close input p link⟩).Answered e call') :
    Stepping ceiling (a.after e) call'.ledger call'.task := by
  have htorn := h.torn hr (List.prefix_refl vs)
  cases hm with
  | @send _ _ _ reply fits =>
  have hg := Outbox.absorb_handed hne a link.child reply
  dsimp only [Activity.closed, Account.after]
  generalize a.add _ = a', link.output.absorb reply = outcome at hg ⊢
  cases hg with
  | more hb ht hne' => exact .close (h.send hb ht) he hr hne'
  | all hb ht hbo => exact .shut (h.send hb ht) he hr hbo
  | failed => exact .severed htorn { h with } hne _

theorem HandedOn.ledger {l l' : Ledger} {p : Int32} {vs : List Int32} {child : Child}
    (h : HandedOn ceiling a l p vs child) (hf : l'.forwarded = l.forwarded)
    (hd : l'.discarded = l.discarded) : HandedOn ceiling a l' p vs child :=
  { h with
    forwarded := hf.trans h.forwarded
    counted := by rw [hf, hd, h.counted] }

/-- Waiting for the child to finish. -/
theorem Stepping.reap_step {l : Ledger} {phase : Phase} {p : Int32} {vs : List Int32}
    {child : Child} (h : HandedOn ceiling a l p vs child) (hl : a.left = true)
    (hm : (Activity.move ⟨phase, l, .reap child (.drained p)⟩).Answered e call') :
    Stepping ceiling (a.after e) call'.ledger call'.task := by
  cases hm with
  | reap result =>
  cases result with
  | ok u =>
    rw [Account.after, Account.add_reaped_ok]
    refine .settle (fun hp => by cases hp) fun l' hf hd => ?_
    have h' : HandedOn ceiling { a with reaped := true } l p vs child := { h with }
    rw [Stage.step, Activity.task_settle]
    exact .done (h'.ledger hf hd) hl rfl
  | error f =>
    rw [Account.after, Account.add_reaped_error]
    refine .failed ?_
    have htorn : Torn ceiling { a with reaped := true, smooth := false } p vs child [] :=
      { accepted := h.accepted
        received := h.received
        launches := h.launches
        child := h.child
        recorded := by
          show a.recorded <+: lineBytes p
          exact h.recorded ▸ List.prefix_refl _
        sent := by
          show a.sent ++ [] <+: _
          rw [List.append_nil]
          exact h.sent ▸ List.prefix_refl _
        order := fun _ => ⟨h.recorded, h.committed⟩
        smooth := rfl }
    exact .ended htorn h.shut hl rfl

theorem Stepping.step (hc : call.ledger.ceiling = ceiling)
    (h : Stepping ceiling a call.ledger call.task) (hm : call.move.Answered e call') :
    Stepping ceiling (a.after e) call'.ledger call'.task := by
  obtain ⟨phase, l, task⟩ := call
  cases h with
  | first h he hr hh hd => exact first_step hc h he hr hh hd hm
  | skip h he hv hr hh hn =>
    subst hn
    exact skip_step h he hv hr hh hm
  | idle h he hv hd =>
    cases hm
    dsimp only [Activity.inputGone]
    unfold Activity.settle
    split
    · exact .idled { h with } h.launches h.smooth he rfl hv h.forwarded hd
    · exact .idled { h with } h.launches h.smooth he rfl hv h.forwarded hd
  | launch h he hv hr hi hd => exact launch_step h he hv hr hi hd hm
  | record hv hr hi hb hne hcm hn hk hs hh he hsm hf hd =>
    exact record_step hv hr hi hb hne hcm hn hk hs hh he hsm hf hd hm
  | next h he hr hh => exact next_step h he hr hh hm
  | forward h he hr hi hv hne => exact forward_step h he hr hi hv hne hm
  | close h he hr hne => exact close_step h he hr hne hm
  | @shut input p vs link h he hr hb =>
    cases hm
    have hd : HandedOn ceiling { a with shut := true }
        { l with forwarded := link.output.taken } p vs link.child :=
      { h with
        received := hr
        ended := he
        sent := by
          have hs := h.sent
          rwa [hb, List.append_nil] at hs
        forwarded := h.taken
        counted := h.counted
        shut := rfl }
    exact .leave hd h.left h.reaped
  | leave h hl hr =>
    cases hm
    exact .reap { h with } rfl hr
  | reap h hl hr => exact reap_step h hl hm
  | emptySevered h hh hne =>
    obtain ⟨hh', ⟨o', ht, hne', h'⟩ | ⟨ht, h'⟩⟩ := h.emptied hh hne hm
    · rw [ht]
      exact .emptySevered h' hh' hne'
    · rw [ht]
      exact .shutSevered h' hh'
  | shutSevered h hh =>
    cases hm
    refine .failed ?_
    exact .leave { h with } rfl hh.left hh.reaped
  | idled => cases hm
  | done => cases hm
  | settled => cases hm
  | failed => cases hm

/-! ## Runs -/

theorem Ledger.ceiling_noteTorn (l : Ledger) (n : Nat) : (l.noteTorn n).ceiling = l.ceiling := by
  unfold Ledger.noteTorn
  split <;> rfl

theorem Activity.ceiling_settle (b : Activity) (state : State) :
    (b.settle state).ledger.ceiling = b.ledger.ceiling := by
  unfold Activity.settle
  split <;> rfl

theorem Activity.ceiling_giveUpOutput (b : Activity) (o : Outbox) (after : Shutting) :
    (b.giveUpOutput o after).ledger.ceiling = b.ledger.ceiling := by
  unfold Activity.giveUpOutput
  split <;> rfl

/-- No move changes the ceiling of a stage. -/
theorem Activity.ceiling_answered (hm : call.move.Answered e call') :
    call'.ledger.ceiling = call.ledger.ceiling := by
  obtain ⟨phase, l, task⟩ := call
  cases task with
  | first input earlier =>
    cases hm
    simp only
    split
    · rfl
    · rename_i receipt _
      cases receipt with
      | value v => simp only [Activity.gotFirst]; split <;> rfl
      | ended torn => exact Ledger.ceiling_noteTorn l torn
      | failed e => rfl
  | skip input earlier n =>
    cases hm
    simp only
    split
    · rfl
    · rename_i receipt _
      cases receipt with
      | value v => rfl
      | ended torn => exact Ledger.ceiling_noteTorn l torn
      | failed e => rfl
  | launch input earlier p =>
    cases hm with
    | launch result =>
    cases result with
    | error f => rfl
    | ok child =>
      cases earlier with
      | none => rfl
      | some old => exact Activity.ceiling_giveUpOutput _ _ _
  | record input p link entry =>
    simp only [Activity.move] at hm
    split at hm
    · cases hm with
      | commit result =>
      cases result with
      | error e => rfl
      | ok u => exact Activity.ceiling_settle _ _
    · cases hm
      simp only [Activity.wrote]
      split <;> rfl
  | next input p link =>
    cases hm
    simp only
    split
    · rfl
    · rename_i receipt _
      cases receipt with
      | value v =>
        simp only [Activity.gotNext]
        split
        · split <;> rfl
        · rfl
      | ended torn =>
        exact (Activity.ceiling_settle _ _).trans (Ledger.ceiling_noteTorn l torn)
      | failed e => rfl
  | forward input p link v =>
    cases hm
    simp only [Activity.madeRoom]
    split <;> rfl
  | close input p link =>
    cases hm
    simp only [Activity.closed]
    split
    · rfl
    · rfl
    · exact Activity.ceiling_giveUpOutput _ _ _
  | empty o after =>
    cases hm
    simp only [Activity.emptied]
    split <;> rfl
  | shut after =>
    cases hm
    simp only [Activity.outputGone]
    split <;> rfl
  | replace input old p link => cases hm; rfl
  | leave after =>
    cases hm
    simp only [Activity.inputGone]
    split
    · exact Activity.ceiling_settle _ _
    · rfl
    · rfl
    · rfl
    · exact Activity.ceiling_giveUpOutput _ _ _
    · rfl
    · rfl
  | reap child after =>
    cases hm with
    | reap result =>
    simp only [Activity.reaped]
    split
    · exact Activity.ceiling_settle _ _
    · rfl
    · rfl
    · split <;> rfl
  | forsake p child => cases hm; rfl
  | ended state result => cases hm

theorem Activity.outcome_eq_some {result : Stage × Except Fault Phase}
    (h : call.outcome? = some result) :
    call.task = .ended result.1.state result.2 ∧ result.1.ledger = call.ledger := by
  unfold Activity.outcome? at h
  split at h
  · next state res ht =>
    cases h
    exact ⟨ht, rfl⟩
  · cases h

/-- What follows a step that has ended well is the next step. -/
theorem Stepping.next_call {l : Ledger} {state : State} (hc : l.ceiling = ceiling)
    (h : Stepping ceiling a l (Stage.step { ledger := l, state }).task) :
    (Run.stepping (Stage.step { ledger := l, state })).Accords ceiling a := by
  cases state with
  | awaitFirst input earlier => exact ⟨hc, h⟩
  | filtering input p link => exact ⟨hc, h⟩
  | draining input p link =>
    dsimp only [Stage.step] at h ⊢
    split at h
    · next he =>
      rw [if_pos he]
      exact ⟨hc, h⟩
    · next he =>
      rw [if_neg he]
      exact ⟨hc, h⟩
  | severed input p child => exact ⟨hc, h⟩
  | spent p => exact ⟨hc, h⟩
  | childReaped p =>
    rw [Stage.step, Activity.task_settle] at h
    cases h with
    | done h hl hr =>
      refine ⟨(Activity.ceiling_settle _ _).trans hc, ?_⟩
      dsimp only [Stage.step]
      unfold Activity.settle
      split
      · exact .done h hl hr
      · exact .done (h.ledger rfl rfl) hl hr
    | settled hp => exact absurd rfl hp
  | done p left => exact ⟨hc, h⟩

/-- Whatever happens to a run of a stage, its account goes on to accord with it. -/
theorem Run.accords_step {r r' : Run} (h : r.Accords ceiling a) (hm : r.move.Answered e r') :
    r'.Accords ceiling (a.after e) := by
  cases r with
  | stepping call =>
    obtain ⟨hc, h⟩ := h
    cases hout : call.outcome? with
    | none =>
      simp only [Run.move, hout] at hm
      obtain ⟨call', hcall, rfl⟩ := hm.of_map
      exact ⟨(Activity.ceiling_answered hcall).trans hc, h.step hc hcall⟩
    | some result =>
      obtain ⟨⟨l, state⟩, result⟩ := result
      obtain ⟨ht, hl⟩ := Activity.outcome_eq_some hout
      simp only [Run.move, hout] at hm
      cases hm
      dsimp only at ht hl
      subst hl
      rw [ht] at h
      cases h with
      | idled hb hn hs he hleft hv hf hd =>
        have hr : (Stage.report { ledger := call.ledger, state := .done none none }) =
            { prime := none, discarded := (values a.received).length } := by
          rw [Stage.report, hf, hd]
          rfl
        show Completed ceiling a
          (Stage.report { ledger := call.ledger, state := .done none none })
        rw [hr]
        exact .idle hb hn hs he hleft hv
      | done h hleft hreaped => exact .owner h hleft hreaped
      | settled hp h =>
        show (Run.afterStep _ (.ok state.phase)).Accords ceiling a
        cases hphase : state.phase with
        | done => exact absurd hphase hp
        | awaitFirst => exact h.next_call hc
        | filtering => exact h.next_call hc
        | draining => exact h.next_call hc
        | childReaped => exact h.next_call hc
      | failed h => exact h
  | givingUp call =>
    cases hout : call.outcome? with
    | none =>
      simp only [Run.move, hout] at hm
      obtain ⟨call', hcall, rfl⟩ := hm.of_map
      exact GivingUp.step h hcall
    | some result =>
      obtain ⟨⟨l, state⟩, result⟩ := result
      obtain ⟨ht, -⟩ := Activity.outcome_eq_some hout
      dsimp only at ht
      simp only [Run.move, hout] at hm
      cases hm
      rw [Run.Accords, ht] at h
      cases h with
      | endedAlone h hl => exact .alone h hl
      | ended h hs hl hr => exact .owner h hs hl hr
  | finished s result => cases hm

/-- A stage that is about to run has done nothing yet. -/
theorem Run.accords_start (ceiling : Option Int32) :
    (Run.start (Stage.new ceiling)).Accords ceiling {} :=
  ⟨rfl, .first ⟨⟨rfl, rfl, rfl, rfl, rfl, rfl⟩, rfl, rfl, rfl, rfl⟩ rfl rfl width_pos rfl⟩

end SieveChain.Stage
