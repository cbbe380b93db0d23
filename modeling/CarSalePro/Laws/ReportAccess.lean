import CarSalePro.Payments.PayPerView

namespace CarSalePro.Ppv

open Store Interleave

section Shop

/-- The user owns the report, or a device it was made with. -/
def World.owns (w : World) (user : UserRef) (report : ReportRef) : Bool :=
  (w.reports.get report).any fun row =>
    row.userId = some user || w.deviceLinks.get row.deviceId = some user

/-- A payment is for a buyer and a report when its session says so, or their purchase carries it. -/
def World.paysFor (w : World) (payment : PaymentRef) (key : UserRef × ReportRef) : Bool :=
  (w.sessions.any fun _ m => m = ⟨.ppv, some payment, some key.2, some key.1⟩) ||
    (w.purchases.get key).any (·.paymentId = payment)

def World.statusOf (w : World) (payment : PaymentRef) : Option PaymentState :=
  (w.payments.get payment).map (·.status)

/-- The purchase of a buyer, unless it is revoked. -/
def World.holds (w : World) (key : UserRef × ReportRef) : Bool :=
  (w.purchases.get key).any (·.revokedAt.isNone)

/-- Whether the user is let in to the report. -/
def World.letsIn (w : World) (user : UserRef) (report : ReportRef) : Prop :=
  ∃ row, ((assertReportAccess user report).alone machine .ok w).1 = .ok row

/-- A reader one of whose payments stands has access; one whose payments are all refunded has none,
unless as the owner. -/
structure World.Fair (w : World) : Prop where
  paying : ∀ user report payment, w.paysFor payment (user, report) →
    w.statusOf payment = some .succeeded → w.letsIn user report
  refunded : ∀ user report, (∀ payment, w.paysFor payment (user, report) →
    w.statusOf payment = some .refunded) → w.owns user report = false → ¬ w.letsIn user report

/-- Nothing has been sold by the view. -/
structure World.Unsold (w : World) : Prop where
  purchases : ∀ key, w.purchases.get key = none
  sessions : ∀ session metadata, w.sessions.get session = some metadata → metadata.purpose ≠ .ppv

end Shop

section Guards

/-- A condition on a call and the state it is made in. -/
abbrev CallGuard := World → Call → Bool

def anyCall : CallGuard := fun _ _ => true

/-- The calls all meet the condition where they are made. -/
def CallGuard.Meets (C : CallGuard) : World → List Call → Prop
  | _, [] => True
  | w, call :: calls => C w call ∧ C.Meets (w.afterCall call) calls

/-- A delivery of the event would be handled now. -/
def World.claimable (w : World) (event : EventRef) : Bool :=
  match w.events.get event with
  | none => true
  | some row => row.status = .claimed && row.claimedAt < w.now - webhookClaimStaleMs

/-- The payment carries a buyer's access while another payment of theirs stands. -/
def World.carriesAnother (w : World) (payment : PaymentRef) : Bool :=
  w.purchases.any fun key row => row.paymentId = payment && row.revokedAt.isNone &&
    !w.owns key.1 key.2 && w.payments.any fun other p =>
      other ≠ payment && p.status = .succeeded && w.paysFor other key

/-- No refund is handled of a payment that carries a buyer's access while another of theirs
stands. -/
def sparesOthers : CallGuard := fun w call =>
  match call.op with
  | .webhook id (.chargeRefunded (some intent)) =>
    !({ w with now := call.at_ }).claimable id ||
      (w.payments.findFirst fun _ p => p.stripePaymentIntentId = some intent).all fun found =>
        !w.carriesAnother found.1
  | _ => true

/-- A paying reader keeps access, and a refunded one loses it, whatever is asked of the shop. -/
def PayingReaderLaw (C : CallGuard) : Prop :=
  ∀ (w : World) (calls : List Call), w.Unsold → C.Meets w calls → (w.afterCalls calls).Fair

end Guards

section Sound

/-- What every call keeps: each payment is for one buyer and report, and a buyer who is not the
owner holds access just while a payment stands. -/
structure World.Sound (w : World) : Prop where
  report : ∀ payment key, w.paysFor payment key →
    ∃ row, w.reports.get key.2 = some row ∧ row.deletedAt = none
  sole : ∀ payment key key', w.paysFor payment key → w.paysFor payment key' → key = key'
  known : ∀ payment key, w.paysFor payment key → (w.payments.get payment).isSome
  paid : ∀ payment key, w.paysFor payment key → w.statusOf payment = some .succeeded →
    w.owns key.1 key.2 ∨ w.holds key
  carried : ∀ key row, w.purchases.get key = some row → row.revokedAt = none →
    w.statusOf row.paymentId = some .succeeded

variable {w w' : World} {payment : PaymentRef} {key : UserRef × ReportRef}

theorem paysFor_iff : w.paysFor payment key ↔
    (∃ session, w.sessions.get session = some ⟨.ppv, some payment, some key.2, some key.1⟩) ∨
      ∃ row, w.purchases.get key = some row ∧ row.paymentId = payment := by
  simp only [World.paysFor, Bool.or_eq_true, Table.any_eq_true, Option.any_eq_true,
    decide_eq_true_eq]
  constructor
  · rintro (⟨session, m, hm, rfl⟩ | ⟨row, hrow, hp⟩)
    · exact .inl ⟨session, hm⟩
    · exact .inr ⟨row, hrow, hp⟩
  · rintro (⟨session, hm⟩ | ⟨row, hrow, hp⟩)
    · exact .inl ⟨session, _, hm, rfl⟩
    · exact .inr ⟨row, hrow, hp⟩

theorem letsIn_iff {user : UserRef} {report : ReportRef} : w.letsIn user report ↔
    (∃ row, w.reports.get report = some row ∧ row.deletedAt = none) ∧
      (w.owns user report ∨ w.holds (user, report)) := by
  have hread {α : Type} (f : World → α) (k : α → Act Report) : (Prog.fetch Site.assertReportAccess f
      >>= k).alone machine .ok w = (k (f w)).alone machine .ok w := rfl
  unfold World.letsIn assertReportAccess
  rw [hread]
  cases hfound : (w.reports.get report).filter (·.deletedAt.isNone) with
  | none =>
    have hnone : ¬ ∃ row, w.reports.get report = some row ∧ row.deletedAt = none := by
      rintro ⟨row, hrow, hopen⟩
      simp [hrow, hopen] at hfound
    exact iff_of_false (fun ⟨_, h⟩ => nomatch h) fun h => hnone h.1
  | some row =>
    obtain ⟨hrow, hopen⟩ := Option.filter_eq_some_iff.mp hfound
    have howns : w.owns user report = (decide (row.userId = some user) ||
        decide (w.deviceLinks.get row.deviceId = some user)) := by
      simp [World.owns, hrow]
    have hexists : ∃ row, w.reports.get report = some row ∧ row.deletedAt = none :=
      ⟨row, hrow, by simpa using hopen⟩
    rw [howns, and_iff_right hexists]
    dsimp only
    by_cases howner : row.userId = some user
    · exact iff_of_true ⟨row, by rw [if_pos howner]; rfl⟩ (.inl (by simp [howner]))
    · simp only [if_neg howner, hread]
      by_cases hlink : w.deviceLinks.get row.deviceId = some user
      · exact iff_of_true ⟨row, by rw [if_pos hlink]; rfl⟩ (.inl (by simp [hlink]))
      · simp only [if_neg hlink, hread, World.holds]
        by_cases hholds : (w.purchases.get (user, report)).any (·.revokedAt.isNone)
        · exact iff_of_true ⟨row, by rw [if_pos hholds]; rfl⟩ (.inr hholds)
        · refine iff_of_false (fun ⟨_, h⟩ => ?_) (by simp [howner, hlink, hholds])
          rw [if_neg hholds] at h
          cases h

theorem World.Unsold.sound (h : w.Unsold) : w.Sound := by
  have hnone (payment key) : ¬ w.paysFor payment key := by
    rw [paysFor_iff]
    rintro (⟨session, hm⟩ | ⟨row, hrow, -⟩)
    · exact h.sessions session _ hm rfl
    · rw [h.purchases key] at hrow
      cases hrow
  refine ⟨fun _ _ hp => absurd hp (hnone _ _), fun _ _ _ hp => absurd hp (hnone _ _),
    fun _ _ hp => absurd hp (hnone _ _), fun _ _ hp => absurd hp (hnone _ _),
    fun key row hrow => ?_⟩
  rw [h.purchases key] at hrow
  cases hrow

/-- A sound shop is fair. -/
theorem World.Sound.fair (h : w.Sound) : w.Fair where
  paying user report payment hp hs :=
    letsIn_iff.mpr ⟨h.report payment (user, report) hp, h.paid payment (user, report) hp hs⟩
  refunded user report hall howns := by
    rw [letsIn_iff, howns]
    rintro ⟨-, hfalse | hholds⟩
    · cases hfalse
    · obtain ⟨row, hrow, hopen⟩ := (Option.any_eq_true _ _).mp hholds
      have hstands := h.carried _ row hrow (by simpa using hopen)
      have hrefunded := hall row.paymentId (paysFor_iff.mpr (.inr ⟨row, hrow, rfl⟩))
      rw [hstands] at hrefunded
      cases hrefunded

theorem owns_of_eq (hreports : w'.reports = w.reports) (hlinks : w'.deviceLinks = w.deviceLinks)
    (user : UserRef) (report : ReportRef) : w'.owns user report = w.owns user report := by
  unfold World.owns
  rw [hreports, hlinks]

/-- The two say the same of who bought what. -/
structure World.Alike (w w' : World) : Prop where
  reports : w'.reports = w.reports
  deviceLinks : w'.deviceLinks = w.deviceLinks
  purchases : w'.purchases = w.purchases
  sessions : w'.sessions = w.sessions
  status : ∀ p, (w.payments.get p).isSome → w'.statusOf p = w.statusOf p

/-- Events, the clock and what a payment says of Stripe are no matter of access. -/
theorem World.Sound.alike (h : w.Sound) (hw : w.Alike w') : w'.Sound := by
  obtain ⟨hreports, hlinks, hpurchases, hsessions, hstatus⟩ := hw
  have hpays (p key) : w'.paysFor p key = w.paysFor p key := by
    unfold World.paysFor
    rw [hsessions, hpurchases]
  have hholds (key) : w'.holds key = w.holds key := by
    unfold World.holds
    rw [hpurchases]
  refine ⟨fun p key hp => ?_, fun p key key' hp hp' => ?_, fun p key hp => ?_,
    fun p key hp hs => ?_,
    fun key row hrow hopen => ?_⟩
  · rw [hreports]
    exact h.report p key (hpays p key ▸ hp)
  · exact h.sole p key key' (hpays p key ▸ hp) (hpays p key' ▸ hp')
  · have hsome := h.known p key (hpays p key ▸ hp)
    have hmap := congrArg Option.isSome (hstatus p hsome)
    simp only [World.statusOf, Option.isSome_map] at hmap
    rw [hmap]
    exact hsome
  · rw [owns_of_eq hreports hlinks, hholds]
    have hp := hpays p key ▸ hp
    exact h.paid p key hp (hstatus p (h.known p key hp) ▸ hs)
  · rw [hpurchases] at hrow
    rw [hstatus row.paymentId (h.known _ key (paysFor_iff.mpr (.inr ⟨row, hrow, rfl⟩)))]
    exact h.carried key row hrow hopen

theorem statusOf_update {f : Payment → Payment} (p : PaymentRef) :
    (w.updatePayment payment f).2.statusOf p =
      if p = payment then (w.payments.get p).map fun row => (f row).status else w.statusOf p := by
  unfold World.updatePayment World.statusOf
  by_cases hp : p = payment
  · subst hp
    cases hrow : w.payments.get p <;> simp [hrow]
  · cases hrow : w.payments.get payment <;> simp [hp]

theorem isSome_update {f : Payment → Payment} (p : PaymentRef) :
    ((w.updatePayment payment f).2.payments.get p).isSome = (w.payments.get p).isSome := by
  unfold World.updatePayment
  by_cases hp : p = payment
  · subst hp
    cases hrow : w.payments.get p <;> simp [hrow]
  · cases hrow : w.payments.get payment <;> simp [hp]

/-- The payment has this status now. -/
def World.marked (w : World) (payment : PaymentRef) (status : PaymentState) : World :=
  (w.updatePayment payment fun row => { row with status := status }).2

theorem marked_frame (w : World) (payment : PaymentRef) (status : PaymentState) :
    (w.marked payment status).reports = w.reports ∧
      (w.marked payment status).deviceLinks = w.deviceLinks ∧
      (w.marked payment status).purchases = w.purchases ∧
      (w.marked payment status).sessions = w.sessions := by
  unfold World.marked World.updatePayment
  cases w.payments.get payment <;> exact ⟨rfl, rfl, rfl, rfl⟩

theorem statusOf_marked {status : PaymentState} (hknown : (w.payments.get payment).isSome)
    (p : PaymentRef) : (w.marked payment status).statusOf p =
      if p = payment then some status else w.statusOf p := by
  obtain ⟨row, hrow⟩ := Option.isSome_iff_exists.mp hknown
  refine (statusOf_update p).trans ?_
  split
  next hp => simp [hp, hrow]
  next => rfl

/-- What a payment that is fulfilled changes. -/
structure World.Fulfills (w w' : World) (payment : PaymentRef) (key : UserRef × ReportRef) :
    Prop where
  reports : w'.reports = w.reports
  deviceLinks : w'.deviceLinks = w.deviceLinks
  sessions : w'.sessions = w.sessions
  known : ∀ p, (w'.payments.get p).isSome = (w.payments.get p).isSome
  status : ∀ p, w'.statusOf p = if p = payment then some .succeeded else w.statusOf p
  held : w'.holds key
  purchase : ∀ k, w'.purchases.get k = w.purchases.get k ∨
    (k = key ∧ w'.purchases.get k = some ⟨payment, none, none⟩)

/-- What a payment that is refunded changes. -/
structure World.Refunds (w w' : World) (payment : PaymentRef) : Prop where
  reports : w'.reports = w.reports
  deviceLinks : w'.deviceLinks = w.deviceLinks
  sessions : w'.sessions = w.sessions
  known : ∀ p, (w'.payments.get p).isSome = (w.payments.get p).isSome
  status : ∀ p, w'.statusOf p = if p = payment then some .refunded else w.statusOf p
  revoked : ∀ k row, w.purchases.get k = some row → row.paymentId = payment →
    ∃ row', w'.purchases.get k = some row' ∧ row'.paymentId = payment ∧ row'.revokedAt ≠ none
  purchase : ∀ k, (∀ row, w.purchases.get k = some row → row.paymentId ≠ payment) →
    w'.purchases.get k = w.purchases.get k

theorem carriesAnother_iff : w.carriesAnother payment ↔ ∃ k row other,
    w.purchases.get k = some row ∧ row.paymentId = payment ∧ row.revokedAt.isNone ∧
      w.owns k.1 k.2 = false ∧ other ≠ payment ∧ w.statusOf other = some .succeeded ∧
      w.paysFor other k := by
  simp only [World.carriesAnother, Table.any_eq_true, Bool.and_eq_true, decide_eq_true_eq,
    Bool.not_eq_true', World.statusOf, Option.map_eq_some_iff]
  constructor
  · rintro ⟨k, row, hrow, ⟨⟨hp, hopen⟩, howns⟩, other, p, hother, ⟨hne, hs⟩, hpays⟩
    exact ⟨k, row, other, hrow, hp, hopen, howns, hne, ⟨p, hother, hs⟩, hpays⟩
  · rintro ⟨k, row, other, hrow, hp, hopen, howns, hne, ⟨p, hother, hs⟩, hpays⟩
    exact ⟨k, row, hrow, ⟨⟨hp, hopen⟩, howns⟩, other, p, hother, ⟨hne, hs⟩, hpays⟩

/-- A payment that is for this buyer and report alone may be fulfilled. -/
theorem World.Sound.fulfilled (h : w.Sound) (hw : w.Fulfills w' payment key)
    (hknown : (w.payments.get payment).isSome)
    (hreport : ∃ row, w.reports.get key.2 = some row ∧ row.deletedAt = none)
    (hsole : ∀ key', w.paysFor payment key' → key' = key) : w'.Sound := by
  have hpays {p k} (hp : w'.paysFor p k) : w.paysFor p k ∨ (p = payment ∧ k = key) := by
    rw [paysFor_iff, hw.sessions] at hp
    rcases hp with hs | ⟨row, hrow, hrowp⟩
    · exact .inl (paysFor_iff.mpr (.inl hs))
    · rcases hw.purchase k with hsame | ⟨hk, hnew⟩
      · exact .inl (paysFor_iff.mpr (.inr ⟨row, hsame ▸ hrow, hrowp⟩))
      · rw [hnew] at hrow
        cases hrow
        exact .inr ⟨hrowp.symm, hk⟩
  have honly {k} (hp : w'.paysFor payment k) : k = key := by
    rcases hpays hp with hold | ⟨-, hk⟩
    · exact hsole k hold
    · exact hk
  refine ⟨fun p k hp => ?_, fun p k k' hp hp' => ?_, fun p k hp => ?_, fun p k hp hs => ?_,
    fun k row hrow hopen => ?_⟩
  · rw [hw.reports]
    rcases hpays hp with hold | ⟨-, rfl⟩
    · exact h.report p k hold
    · exact hreport
  · by_cases hpp : p = payment
    · subst hpp
      rw [honly hp, honly hp']
    · have hold := (hpays hp).resolve_right fun hnew => hpp hnew.1
      have hold' := (hpays hp').resolve_right fun hnew => hpp hnew.1
      exact h.sole p k k' hold hold'
  · rw [hw.known]
    rcases hpays hp with hold | ⟨rfl, -⟩
    · exact h.known p k hold
    · exact hknown
  · rw [owns_of_eq hw.reports hw.deviceLinks]
    by_cases hk : k = key
    · subst hk
      exact .inr hw.held
    · have hpp : p ≠ payment := fun heq => hk (honly (heq ▸ hp))
      have hold := (hpays hp).resolve_right fun hnew => hk hnew.2
      rw [hw.status, if_neg hpp] at hs
      have hsame := (hw.purchase k).resolve_right fun hnew => hk hnew.1
      unfold World.holds
      rw [hsame]
      exact h.paid p k hold hs
  · rw [hw.status]
    split
    next => rfl
    next hp =>
      rcases hw.purchase k with hsame | ⟨-, hnew⟩
      · exact h.carried k row (hsame ▸ hrow) hopen
      · rw [hnew] at hrow
        cases hrow
        exact absurd rfl hp

/-- A payment may be refunded that carries no one's access while another of theirs stands. -/
theorem World.Sound.refunded (h : w.Sound) (hw : w.Refunds w' payment)
    (hothers : w.carriesAnother payment = false) : w'.Sound := by
  have hcarried (k) : (∃ row row', w.purchases.get k = some row ∧ row.paymentId = payment ∧
      w'.purchases.get k = some row' ∧ row'.paymentId = payment ∧ row'.revokedAt ≠ none) ∨
      ((∀ row, w.purchases.get k = some row → row.paymentId ≠ payment) ∧
        w'.purchases.get k = w.purchases.get k) := by
    by_cases hk : ∃ row, w.purchases.get k = some row ∧ row.paymentId = payment
    · obtain ⟨row, hrow, hp⟩ := hk
      obtain ⟨row', hrow', hp', hrevoked⟩ := hw.revoked k row hrow hp
      exact .inl ⟨row, row', hrow, hp, hrow', hp', hrevoked⟩
    · have hother (row) (hrow : w.purchases.get k = some row) : row.paymentId ≠ payment :=
        fun hp => hk ⟨row, hrow, hp⟩
      exact .inr ⟨hother, hw.purchase k hother⟩
  have hpays {p k} (hp : w'.paysFor p k) : w.paysFor p k := by
    rw [paysFor_iff, hw.sessions] at hp
    refine paysFor_iff.mpr (hp.imp_right fun ⟨row', hrow', hrowp⟩ => ?_)
    rcases hcarried k with ⟨row, row'', hrow, hrp, hrow'', hrp', -⟩ | ⟨-, hsame⟩
    · rw [hrow''] at hrow'
      cases hrow'
      exact ⟨row, hrow, hrp.trans (hrp'.symm.trans hrowp)⟩
    · exact ⟨row', hsame ▸ hrow', hrowp⟩
  refine ⟨fun p k hp => ?_, fun p k k' hp hp' => h.sole p k k' (hpays hp) (hpays hp'),
    fun p k hp => ?_, fun p k hp hs => ?_, fun k row' hrow' hopen => ?_⟩
  · rw [hw.reports]
    exact h.report p k (hpays hp)
  · rw [hw.known]
    exact h.known p k (hpays hp)
  · rw [owns_of_eq hw.reports hw.deviceLinks]
    rw [hw.status] at hs
    split at hs
    next => cases hs
    next hne =>
      refine or_iff_not_imp_left.mpr fun howner => ?_
      have hholds := (h.paid p k (hpays hp) hs).resolve_left howner
      rcases hcarried k with ⟨row, row', hrow, hrp, -, -, -⟩ | ⟨-, hsame⟩
      · have hopen : row.revokedAt.isNone := by simpa [World.holds, hrow] using hholds
        have hany := carriesAnother_iff.not.mp (Bool.eq_false_iff.mp hothers)
        exact absurd ⟨k, row, p, hrow, hrp, hopen, by simpa using howner, hne, hs, hpays hp⟩ hany
      · unfold World.holds
        rw [hsame]
        exact hholds
  · rcases hcarried k with ⟨row, row'', -, -, hrow'', -, hrevoked⟩ | ⟨hother, hsame⟩
    · rw [hrow''] at hrow'
      cases hrow'
      exact absurd hopen hrevoked
    · rw [hsame] at hrow'
      rw [hw.status, if_neg (hother row' hrow')]
      exact h.carried k row' hrow' hopen

end Sound

section Programs

variable {w : World} {c : Fate} {payment : PaymentRef}

theorem exec_write {s : Stmt} (hs : ∀ m, s ≠ .createSession m) :
    machine.exec s c w = w.write s := by
  cases s with
  | createSession m => exact absurd rfl (hs m)
  | _ => rfl

theorem fulfills_of {key : UserRef × ReportRef} (hknown : (w.payments.get payment).isSome)
    (purchases : Table (UserRef × ReportRef) ReportPurchase)
    (held : (purchases.get key).any (·.revokedAt.isNone))
    (purchase : ∀ k, purchases.get k = w.purchases.get k ∨
      (k = key ∧ purchases.get k = some ⟨payment, none, none⟩)) :
    w.Fulfills { w.marked payment .succeeded with purchases := purchases } payment key := by
  obtain ⟨hreports, hlinks, -, hsessions⟩ :=
    marked_frame w payment .succeeded
  exact ⟨hreports, hlinks, hsessions, fun p => isSome_update p, statusOf_marked hknown, held,
    purchase⟩

/-- `fulfillPurchase` fulfils a payment that is for this buyer and report alone. -/
theorem fulfills {user : UserRef} {report : ReportRef} (hknown : (w.payments.get payment).isSome)
    (hsole : ∀ key', w.paysFor payment key' → key' = (user, report)) :
    w.Fulfills ((fulfillPurchase payment report user).alone machine c w).2 payment
      (user, report) := by
  let paid := w.marked payment .succeeded
  have hpurchases : paid.purchases = w.purchases := (marked_frame w payment .succeeded).2.2.1
  have hexists : (paid.payments.get payment).isNone = false := by
    have hsome : (paid.payments.get payment).isSome := (isSome_update payment).trans hknown
    simpa using hsome
  have helsewhere : paid.carriedElsewhere (user, report) payment = false := by
    rw [World.carriedElsewhere, hpurchases, Table.any_eq_false]
    intro k row hrow
    by_cases hp : row.paymentId = payment
    · simp [hsole k (paysFor_iff.mpr (.inr ⟨row, hrow, hp⟩))]
    · simp [hp]
  have hbought (k) : (w.purchases.set (user, report) ⟨payment, none, none⟩).get k =
      w.purchases.get k ∨ (k = (user, report) ∧
        (w.purchases.set (user, report) ⟨payment, none, none⟩).get k =
          some ⟨payment, none, none⟩) := by
    rw [Table.get_set]
    split
    next hk => exact .inr ⟨hk, rfl⟩
    next => exact .inl rfl
  have hsucceed : (machine.exec (.succeed payment) c w).2 = paid := rfl
  have hcreate : machine.exec (.createPurchase user report payment) c paid =
      paid.write (.createPurchase user report payment) := exec_write (by simp)
  have hrevive : machine.exec (.revivePurchase user report payment) c paid =
      paid.write (.revivePurchase user report payment) := exec_write (by simp)
  unfold fulfillPurchase
  simp only [Prog.alone_bind, Prog.alone_quietly, Prog.alone_attempt, Prog.alone_perform, hsucceed,
    hcreate]
  cases hrow : w.purchases.get (user, report) with
  | none =>
    have hwrite : paid.write (.createPurchase user report payment) = (.ok (), { paid with
        purchases := w.purchases.set (user, report) ⟨payment, none, none⟩ }) := by
      simp only [World.write, hpurchases, hrow, helsewhere, hexists]
      rfl
    rw [hwrite]
    exact fulfills_of hknown _ (by simp) hbought
  | some row =>
    have hwrite : paid.write (.createPurchase user report payment) = (.error .unique, paid) := by
      simp only [World.write, hpurchases, hrow]
      rfl
    rw [hwrite]
    simp only [Prog.alone_bind, Prog.alone_perform, hrevive]
    cases hrevoked : row.revokedAt with
    | none =>
      have hopen : (paid.purchases.get (user, report)).filter (·.revokedAt.isSome) = none := by
        rw [hpurchases, hrow]
        exact Option.filter_some_neg (by simp [hrevoked])
      have hkept : paid.write (.revivePurchase user report payment) = (rows 0, paid) := by
        simp only [World.write, hopen]
        rfl
      rw [hkept]
      have hheld : w.Fulfills { paid with purchases := w.purchases } payment (user, report) :=
        fulfills_of hknown w.purchases (by simp [hrow, hrevoked]) fun _ => .inl rfl
      rw [← hpurchases] at hheld
      exact hheld
    | some at_ =>
      have hlost : (paid.purchases.get (user, report)).filter (·.revokedAt.isSome) = some row := by
        rw [hpurchases, hrow]
        exact Option.filter_some_pos (by simp [hrevoked])
      have hback : paid.write (.revivePurchase user report payment) = (rows 1, { paid with
          purchases := w.purchases.set (user, report) ⟨payment, none, none⟩ }) := by
        simp only [World.write, hlost, helsewhere, hexists]
        rw [hpurchases]
        rfl
      rw [hback]
      exact fulfills_of hknown _ (by simp) hbought

/-- `markPaymentRefunded` refunds a payment there is. -/
theorem refunds (hknown : (w.payments.get payment).isSome) :
    w.Refunds ((markPaymentRefunded payment).alone machine c w).2 payment := by
  let marked := w.marked payment .refunded
  obtain ⟨hreports, hlinks, hpurchases, hsessions⟩ :=
    marked_frame w payment .refunded
  have hrefund : machine.exec (.refund payment) c w = (.ok (), marked) := by
    obtain ⟨row, hrow⟩ := Option.isSome_iff_exists.mp hknown
    rw [exec_write (by simp)]
    simp only [World.write, marked, World.marked, World.updatePayment, hrow]
    rfl
  have hrevoke : machine.exec (.revoke payment) c marked = marked.write (.revoke payment) :=
    exec_write (by simp)
  unfold markPaymentRefunded revokeEntitlementsFor
  simp only [Prog.alone_bind, Prog.alone_attempt, Prog.alone_perform, hrefund, hrevoke]
  have hafter (k) : (marked.write (.revoke payment)).2.purchases.get k =
      (w.purchases.get k).map fun row => (if row.paymentId = payment ∧ row.revokedAt = none then
        some { row with revokedAt := some marked.now, revokedReason := some "payment_refunded" }
        else none).getD row := by
    rw [← hpurchases]
    rfl
  refine ⟨hreports, hlinks, hsessions, fun p => isSome_update p, statusOf_marked hknown,
    fun k row hrow hp => ?_, fun k hother => (hafter k).trans ?_⟩
  · have hafter := hafter k
    rw [hrow, Option.map_some] at hafter
    by_cases hopen : row.revokedAt = none
    · rw [if_pos ⟨hp, hopen⟩] at hafter
      exact ⟨_, hafter, hp, by simp⟩
    · rw [if_neg fun h => hopen h.2] at hafter
      exact ⟨row, hafter, hp, hopen⟩
  · cases hrow : w.purchases.get k with
    | none => rfl
    | some row => simp [hother row hrow]

@[simp] theorem answer_read {α : Type} (site : Site) (f : World → α) :
    machine.answer site f c w = .ok (f w) := rfl

theorem alike_recordPaymentIntent (payment : PaymentRef) (intent : Option IntentRef) :
    w.Alike ((recordPaymentIntent payment intent).alone machine c w).2 := by
  cases intent with
  | none => exact ⟨rfl, rfl, rfl, rfl, fun _ _ => rfl⟩
  | some intent =>
    have hprog : ((recordPaymentIntent payment (some intent)).alone machine c w).2 =
        (w.write (.recordIntent payment intent)).2 := by
      simp only [recordPaymentIntent, Prog.alone_bind, Prog.alone_perform]
      rw [exec_write (by simp)]
      rcases w.write (.recordIntent payment intent) with ⟨_ | _, w'⟩ <;> rfl
    rw [hprog]
    simp only [World.write]
    split
    next => exact ⟨rfl, rfl, rfl, rfl, fun _ _ => rfl⟩
    next row hfound =>
      obtain ⟨hrow, -⟩ := Option.filter_eq_some_iff.mp hfound
      split
      next => exact ⟨rfl, rfl, rfl, rfl, fun _ _ => rfl⟩
      next =>
        refine ⟨rfl, rfl, rfl, rfl, fun p _ => ?_⟩
        simp only [World.statusOf, Table.get_set]
        split
        next hp => simp [hp, hrow]
        next => rfl

/-- The purchase a session says it is for may be fulfilled. -/
theorem sound_fulfillSession (h : w.Sound) {session : SessionRef} {metadata : SessionMetadata}
    (hsession : w.sessions.get session = some metadata) :
    ((fulfillSession metadata).alone machine c w).2.Sound := by
  unfold fulfillSession
  split
  next payment report user hpurpose hpayment hreport huser =>
    have hpays : w.paysFor payment (user, report) := by
      refine paysFor_iff.mpr (.inl ⟨session, ?_⟩)
      rw [hsession, ← hpurpose, ← hpayment, ← hreport, ← huser]
    have hsole (key') (h' : w.paysFor payment key') : key' = (user, report) :=
      h.sole payment key' (user, report) h' hpays
    have hknown := h.known payment _ hpays
    exact h.fulfilled (fulfills hknown hsole) hknown (h.report payment _ hpays) hsole
  next => exact h

theorem sound_processWebhook (h : w.Sound) (event : StripeEvent)
    (hspares : ∀ intent, event = .chargeRefunded (some intent) →
      (w.payments.findFirst fun _ p => p.stripePaymentIntentId = some intent).all fun found =>
        !w.carriesAnother found.1) :
    ((processWebhook event).alone machine c w).2.Sound := by
  cases event with
  | checkoutCompleted session intent =>
    simp only [processWebhook, Prog.alone_bind, Prog.alone_fetch, answer_read]
    cases hsession : w.sessions.get session with
    | none => exact h
    | some metadata =>
      cases hpayment : metadata.paymentId with
      | none =>
        simp only [hpayment]
        exact sound_fulfillSession h hsession
      | some payment =>
        have halike := alike_recordPaymentIntent (w := w) (c := c) payment intent
        simp only [hpayment, Prog.alone_bind]
        generalize (recordPaymentIntent payment intent).alone machine c w = run at halike ⊢
        obtain ⟨r, w'⟩ := run
        have hsound := h.alike halike
        cases r with
        | error e => exact hsound
        | ok _ => exact sound_fulfillSession hsound (halike.sessions ▸ hsession)
  | chargeRefunded intent =>
    cases intent with
    | none => exact h
    | some intent =>
      simp only [processWebhook, Prog.alone_bind, Prog.alone_fetch, answer_read]
      have hspares := hspares intent rfl
      cases hfound : w.payments.findFirst fun _ p => p.stripePaymentIntentId = some intent with
      | none => exact h
      | some found =>
        obtain ⟨payment, row⟩ := found
        have hrow := (Table.findFirst_some hfound).1
        rw [hfound] at hspares
        exact h.refunded (refunds (by rw [hrow]; rfl)) (by simpa using hspares)
  | other => exact h

/-- A delivery is let through just when the event is claimable, and nothing but the events
changes. -/
theorem claimed (event : EventRef) : ∃ events, (claimWebhookEvent event).alone machine c w =
    (.ok (w.claimable event), { w with events := events }) := by
  have hclaim : machine.exec (.claimEvent event) c w = w.write (.claimEvent event) :=
    exec_write (by simp)
  have hsteal (t : Instant) : (stealEvent event t).alone machine c w =
      w.write (.stealEvent event t) := Prog.alone_perform.trans (exec_write (by simp))
  simp only [claimWebhookEvent, Prog.alone_bind, Prog.alone_attempt, Prog.alone_perform, hclaim]
  cases hrow : w.events.get event with
  | none =>
    have hwrite : w.write (.claimEvent event) =
        (.ok (), { w with events := w.events.set event ⟨.claimed, w.now, 1, none⟩ }) := by
      simp only [World.write, hrow]
      rfl
    rw [hwrite]
    exact ⟨_, by simp only [World.claimable, hrow]; rfl⟩
  | some row =>
    have hwrite : w.write (.claimEvent event) = (.error .unique, w) := by
      simp only [World.write, hrow]
      rfl
    rw [hwrite]
    simp only [Prog.alone_bind, Prog.alone_fetch, answer_read, hsteal]
    let stale (row : StripeWebhookEvent) : Bool :=
      row.status = .claimed && row.claimedAt < w.now - webhookClaimStaleMs
    have hclaimable : w.claimable event = stale row := by simp [World.claimable, hrow, stale]
    rw [hclaimable]
    cases hstale : stale row with
    | true =>
      have hstolen : (w.events.get event).filter stale = some row := by
        rw [hrow]
        exact Option.filter_some_pos hstale
      simp only [World.write, stale] at hstolen ⊢
      rw [hstolen]
      exact ⟨_, rfl⟩
    | false =>
      have hheld : (w.events.get event).filter stale = none := by
        rw [hrow]
        exact Option.filter_some_neg hstale
      simp only [World.write, stale] at hheld ⊢
      rw [hheld]
      exact ⟨w.events, rfl⟩

theorem alike_release (event : EventRef) : w.Alike (w.write (.releaseEvent event)).2 :=
  ⟨rfl, rfl, rfl, rfl, fun _ _ => rfl⟩

theorem alike_complete (event : EventRef) : w.Alike (w.write (.completeEvent event)).2 := by
  simp only [World.write]
  split <;> exact ⟨rfl, rfl, rfl, rfl, fun _ _ => rfl⟩

theorem sound_handleWebhook (h : w.Sound) (id : EventRef) (event : StripeEvent)
    (hspares : ∀ intent, event = .chargeRefunded (some intent) → w.claimable id →
      (w.payments.findFirst fun _ p => p.stripePaymentIntentId = some intent).all fun found =>
        !w.carriesAnother found.1) :
    ((handleWebhook id event).alone machine c w).2.Sound := by
  obtain ⟨events, hclaimed⟩ := claimed (w := w) (c := c) id
  have hbefore : w.Alike { w with events := events } := ⟨rfl, rfl, rfl, rfl, fun _ _ => rfl⟩
  simp only [handleWebhook, Prog.alone_bind, hclaimed]
  cases hclaimable : w.claimable id with
  | false => exact h.alike hbefore
  | true =>
    have hrun := sound_processWebhook (c := c) (h.alike hbefore) event fun intent he =>
      hspares intent he hclaimable
    simp only [if_true, Prog.alone_bind, Prog.alone_attempt]
    generalize (processWebhook event).alone machine c { w with events := events } = run at hrun ⊢
    obtain ⟨r, w'⟩ := run
    cases r with
    | error e =>
      have hrelease : machine.exec (.releaseEvent id) c w' = w'.write (.releaseEvent id) :=
        exec_write (by simp)
      simp only [Prog.alone_bind, Prog.alone_quietly, Prog.alone_perform, hrelease]
      exact hrun.alike (alike_release id)
    | ok _ =>
      have hcomplete : machine.exec (.completeEvent id) c w' = w'.write (.completeEvent id) :=
        exec_write (by simp)
      simp only [Prog.alone_quietly, Prog.alone_perform, hcomplete]
      exact hrun.alike (alike_complete id)

/-- A new payment, of which no session says what it is for. -/
theorem alike_createPayment (row : Payment) : w.Alike (w.write (.createPayment row)).2 := by
  refine ⟨rfl, rfl, rfl, rfl, fun p hp => ?_⟩
  have hne : p ≠ w.payments.fresh := by
    rintro rfl
    rw [Table.get_fresh] at hp
    cases hp
  simp [World.statusOf, World.write, hne]

theorem alike_setSession (w : World) (payment : PaymentRef) (session : SessionRef) :
    w.Alike (w.setSession payment session).2 := by
  unfold World.setSession
  by_cases htaken : w.payments.any fun key row =>
      key ≠ payment && row.stripeCheckoutSessionId = some session
  · rw [if_pos htaken]
    exact ⟨rfl, rfl, rfl, rfl, fun _ _ => rfl⟩
  · rw [if_neg htaken]
    unfold World.updatePayment
    cases hrow : w.payments.get payment with
    | none => exact ⟨rfl, rfl, rfl, rfl, fun _ _ => rfl⟩
    | some row =>
      refine ⟨rfl, rfl, rfl, rfl, fun p _ => ?_⟩
      simp only [World.statusOf, Table.get_set]
      split
      next hp => simp [hp, hrow]
      next => rfl

/-- A new session for a payment that is for nothing else. -/
theorem sound_createSession (h : w.Sound) {user : UserRef} {report : ReportRef}
    (hknown : (w.payments.get payment).isSome) (hpending : w.statusOf payment = some .pending)
    (hreport : ∃ row, w.reports.get report = some row ∧ row.deletedAt = none)
    (hfree : ∀ key, ¬ w.paysFor payment key) :
    (w.write (.createSession ⟨.ppv, some payment, some report, some user⟩)).2.Sound := by
  have hpays {p key} (hp : (w.write (.createSession
      ⟨.ppv, some payment, some report, some user⟩)).2.paysFor p key) :
      w.paysFor p key ∨ (p = payment ∧ key = (user, report)) := by
    obtain ⟨u, r⟩ := key
    rw [paysFor_iff] at hp
    rcases hp with ⟨session, hm⟩ | hrow
    · simp only [World.write, Table.get_set] at hm
      split at hm
      next =>
        cases hm
        exact .inr ⟨rfl, rfl⟩
      next => exact .inl (paysFor_iff.mpr (.inl ⟨session, hm⟩))
    · exact .inl (paysFor_iff.mpr (.inr hrow))
  refine ⟨fun p key hp => ?_, fun p key key' hp hp' => ?_, fun p key hp => ?_,
    fun p key hp hs => ?_,
    h.carried⟩
  · rcases hpays hp with hold | ⟨-, rfl⟩
    · exact h.report p key hold
    · exact hreport
  · rcases hpays hp with hold | ⟨rfl, rfl⟩
    · rcases hpays hp' with hold' | ⟨rfl, rfl⟩
      · exact h.sole p key key' hold hold'
      · exact absurd hold (hfree key)
    · rcases hpays hp' with hold' | ⟨-, rfl⟩
      · exact absurd hold' (hfree key')
      · rfl
  · rcases hpays hp with hold | ⟨rfl, -⟩
    · exact h.known p key hold
    · exact hknown
  · rcases hpays hp with hold | ⟨rfl, -⟩
    · exact h.paid p key hold hs
    · have hs : w.statusOf p = some .succeeded := hs
      rw [hpending] at hs
      cases hs

/-- What is left of a checkout once the buyer turns out not to have the report. -/
theorem sound_openCheckout (h : w.Sound) (user : UserRef) {report : ReportRef}
    (hreport : ∃ row, w.reports.get report = some row ∧ row.deletedAt = none) :
    ((do
      let amountCents ← Prog.fetch .createPpvCheckout (·.payPerViewPriceCents)
      let payment ← createPayment ⟨.ppv, user, amountCents, .pending, none, none⟩
      let configured ← Prog.fetch .createPpvCheckout (·.stripeConfigured)
      if configured = false then do
        fulfillPurchase payment report user
        pure (.mock amountCents)
      else do
        let session ← createSession ⟨.ppv, some payment, some report, some user⟩
        let _ ← (Prog.perform (Stmt.setSession payment session) : Act Unit)
        pure (.checkout session amountCents) :
      Act PpvCheckoutResponse).alone machine c w).2.Sound := by
  let row : Payment := ⟨.ppv, user, w.payPerViewPriceCents, .pending, none, none⟩
  let w₁ : World := { w with payments := w.payments.set w.payments.fresh row }
  have hcreate : (createPayment row).alone machine c w = (.ok w.payments.fresh, w₁) :=
    Prog.alone_perform.trans (exec_write (by simp))
  have h₁ : w₁.Sound := h.alike (alike_createPayment row)
  have hknown : (w₁.payments.get w.payments.fresh).isSome := by simp [w₁]
  have hfree (key) (hp : w₁.paysFor w.payments.fresh key) : False := by
    have hold := h.known w.payments.fresh key hp
    rw [Table.get_fresh] at hold
    cases hold
  simp only [Prog.alone_bind, Prog.alone_fetch, answer_read]
  rw [hcreate]
  dsimp only
  by_cases hmock : w₁.stripeConfigured = false
  · have hsole (key) (hp : w₁.paysFor w.payments.fresh key) : key = (user, report) :=
      (hfree key hp).elim
    have hrun : ((fulfillPurchase w.payments.fresh report user).alone machine c w₁).2.Sound :=
      h₁.fulfilled (fulfills hknown hsole) hknown hreport hsole
    rw [if_pos hmock, Prog.alone_bind]
    generalize (fulfillPurchase w.payments.fresh report user).alone machine c w₁ = run at hrun ⊢
    obtain ⟨r, w'⟩ := run
    cases r <;> exact hrun
  · let metadata : SessionMetadata := ⟨.ppv, some w.payments.fresh, some report, some user⟩
    have hopened : (w₁.write (.createSession metadata)).2.Sound :=
      sound_createSession h₁ hknown (by simp [World.statusOf, w₁, row]) hreport fun key hp =>
        hfree key hp
    have hsession : (createSession ⟨.ppv, some w.payments.fresh, some report, some user⟩).alone
        machine c w₁ = World.exec (.createSession metadata) c w₁ := Prog.alone_perform
    rw [if_neg hmock, Prog.alone_bind, hsession]
    cases c with
    | refused => exact h₁
    | lost => exact hopened
    | ok =>
      have hset := alike_setSession (w₁.write (.createSession metadata)).2 w.payments.fresh
        w₁.sessions.fresh
      have hrun : ((Prog.perform (Stmt.setSession w.payments.fresh w₁.sessions.fresh) :
          Act Unit).alone machine .ok (w₁.write (.createSession metadata)).2) =
          (w₁.write (.createSession metadata)).2.setSession w.payments.fresh w₁.sessions.fresh :=
        Prog.alone_perform
      show ((((Prog.perform (Stmt.setSession w.payments.fresh w₁.sessions.fresh) : Act Unit) >>=
        fun _ => pure (.checkout w₁.sessions.fresh w.payPerViewPriceCents)) :
          Act PpvCheckoutResponse).alone machine .ok (w₁.write (.createSession metadata)).2).2.Sound
      rw [Prog.alone_bind, hrun]
      generalize (w₁.write (.createSession metadata)).2.setSession w.payments.fresh
        w₁.sessions.fresh = run at hset ⊢
      obtain ⟨r, w'⟩ := run
      cases r <;> exact hopened.alike hset

theorem sound_createPpvCheckout (h : w.Sound) (user : UserRef) (code : String) :
    ((createPpvCheckout user code).alone machine c w).2.Sound := by
  simp only [createPpvCheckout, Prog.alone_bind, Prog.alone_fetch, answer_read]
  cases hfound : w.reports.findLast fun _ r => r.code = code && r.deletedAt.isNone with
  | none => exact h
  | some found =>
    obtain ⟨report, row⟩ := found
    obtain ⟨hrow, hmatch⟩ := Table.findLast_some hfound
    have hreport : ∃ row, w.reports.get report = some row ∧ row.deletedAt = none :=
      ⟨row, hrow, Option.isNone_iff_eq_none.mp (Bool.and_eq_true _ _ ▸ hmatch).2⟩
    dsimp only
    simp only [Prog.alone_bind, Prog.alone_fetch, answer_read]
    by_cases hholds : (w.purchases.get (user, report)).any (·.revokedAt.isNone)
    · rw [if_pos hholds]
      exact h
    · rw [if_neg hholds]
      exact sound_openCheckout h user hreport

theorem sound_afterCall (h : w.Sound) (call : Call) (hC : sparesOthers w call) :
    (w.afterCall call).Sound := by
  obtain ⟨op, at_, fate⟩ := call
  have hnow : w.Alike { w with now := at_ } := ⟨rfl, rfl, rfl, rfl, fun _ _ => rfl⟩
  have hthen := h.alike hnow
  cases op with
  | checkout user code =>
    have hrun := sound_createPpvCheckout (c := fate) hthen user code
    simp only [World.afterCall, Op.prog, Prog.alone_bind]
    generalize (createPpvCheckout user code).alone machine fate { w with now := at_ } = run
      at hrun ⊢
    obtain ⟨r, w'⟩ := run
    cases r <;> exact hrun
  | webhook id event =>
    refine sound_handleWebhook hthen id event fun intent he hclaimable => ?_
    subst he
    have hall : (w.payments.findFirst fun _ p => p.stripePaymentIntentId = some intent).all
        fun found => !w.carriesAnother found.1 := by
      simpa [sparesOthers, hclaimable] using hC
    exact hall

theorem sound_afterCalls (h : w.Sound) {calls : List Call} (hC : sparesOthers.Meets w calls) :
    (w.afterCalls calls).Sound := by
  induction calls generalizing w with
  | nil => exact h
  | cons call calls ih => exact ih (sound_afterCall h call hC.1) hC.2

end Programs

/-- While no refund is handled of a payment that carries a buyer's access though another of theirs
stands, a paying reader keeps access, and a refunded one loses it. -/
theorem paying_reader (w : World) (calls : List Call) (hw : w.Unsold)
    (hC : sparesOthers.Meets w calls) : (w.afterCalls calls).Fair :=
  (sound_afterCalls hw.sound hC).fair

section TwoCheckouts

/-- A report is on sale. -/
def saleOfReport : World where
  reports := Table.empty.set 1 ⟨"CSP-1", some 5, "phone", none⟩
  deviceLinks := .empty
  purchases := .empty
  payments := .empty
  events := .empty
  sessions := .empty
  now := 0
  stripeConfigured := true
  payPerViewPriceCents := 990

theorem unsold_saleOfReport : saleOfReport.Unsold :=
  ⟨fun _ => rfl, fun _ _ h => nomatch h⟩

/-- A buyer opens two checkouts, pays both, and one of the two is refunded. -/
def payTwice (refunded : IntentRef) : List Call :=
  [⟨.checkout 7 "CSP-1", 0, .ok⟩, ⟨.checkout 7 "CSP-1", 1, .ok⟩,
    ⟨.webhook 1 (.checkoutCompleted 1 (some 11)), 2, .ok⟩,
    ⟨.webhook 2 (.checkoutCompleted 2 (some 12)), 3, .ok⟩,
    ⟨.webhook 3 (.chargeRefunded (some refunded)), 4, .ok⟩]

/-- The access row carries the first payment, and is revoked with it though the second stands. -/
theorem paid_and_locked_out : ¬ PayingReaderLaw anyCall := by
  intro hlaw
  have hmeets : anyCall.Meets saleOfReport (payTwice 11) := ⟨rfl, rfl, rfl, rfl, rfl, trivial⟩
  have hfair := hlaw saleOfReport (payTwice 11) unsold_saleOfReport hmeets
  have hpays : (saleOfReport.afterCalls (payTwice 11)).paysFor 2 (7, 1) := by decide +kernel
  have hstands : (saleOfReport.afterCalls (payTwice 11)).statusOf 2 = some .succeeded := by
    decide +kernel
  have hout : ((saleOfReport.afterCalls (payTwice 11)).owns 7 1 ||
      (saleOfReport.afterCalls (payTwice 11)).holds (7, 1)) = false := by decide +kernel
  obtain ⟨-, haccess⟩ := letsIn_iff.mp (hfair.paying 7 1 2 hpays hstands)
  rw [← Bool.or_eq_true, hout] at haccess
  cases haccess

/-- When the second is refunded, the first keeps the buyer in. -/
theorem paying_reader_once : (saleOfReport.afterCalls (payTwice 12)).letsIn 7 1 := by
  have hmeets : sparesOthers.Meets saleOfReport (payTwice 12) :=
    ⟨rfl, rfl, by decide +kernel, by decide +kernel, by decide +kernel, trivial⟩
  exact (paying_reader saleOfReport (payTwice 12) unsold_saleOfReport hmeets).paying 7 1 1
    (by decide +kernel) (by decide +kernel)

end TwoCheckouts

end CarSalePro.Ppv
