import ExferHonor.Effects.History
import ExferHonor.Faucet.Server
import ExferHonor.Numeric.Budget

/-! What the faucet's limits hold over any interleaving of requests. They are checked against the
books, where a drip appears only after the wallet has answered. -/
namespace ExferHonor
namespace Faucet
open Effects Program Budget

def Drip.use (drip : Drip) : Use := ⟨drip.moment, drip.amount⟩

def passes : FaucetCall → Option Int
  | ⟨.rateLimit _ _, .ok (now, none)⟩ => some now
  | _ => none

/-- The wallet has refused the transfer, or the drip is on the books. -/
def released : FaucetCall → Bool
  | ⟨.transfer _ _ _, .error _⟩ => true
  | ⟨.insertDrip _, .ok _⟩ => true
  | _ => false

section
variable (config : Config)

/-- A drip that the faucet has let pass and that is not on its books: the wallet may still make the
transfer, or has made it. -/
def owed (thread : FaucetThread) : Option Use :=
  if thread.past.any released then none
  else (thread.past.findSome? passes).map fun now => ⟨now, config.amount⟩

def owing (pool : FaucetPool) : List Use := pool.threads.filterMap (owed config)

end

/-! How far a request has come when it makes one of the calls that matter. -/

inductive Stage (config : Config) (request : Request) : List FaucetCall → FaucetOp → Prop
  | limiting {text} : Stage config request [⟨.readBody, .ok text⟩]
      (.rateLimit (asciiLower text) (clientIp request))
  | transferring {text now} : Stage config request
      [⟨.readBody, .ok text⟩, ⟨.rateLimit (asciiLower text) (clientIp request), .ok (now, none)⟩]
      (.transfer (asciiLower text) config.amount s!"faucet-{asciiLower text}-{now}")
  | booking {text now txId} : Stage config request
      [⟨.readBody, .ok text⟩, ⟨.rateLimit (asciiLower text) (clientIp request), .ok (now, none)⟩,
        ⟨.transfer (asciiLower text) config.amount s!"faucet-{asciiLower text}-{now}", .ok txId⟩]
      (.insertDrip ⟨asciiLower text, clientIp request, config.amount, txId, now⟩)

def aside : FaucetOp → Bool
  | .rateLimit _ _ => false
  | .transfer _ _ _ => false
  | .insertDrip _ => false
  | _ => true

section
variable {config : Config} {request : Request} {past : List FaucetCall} {op : FaucetOp}
  {resume : op.Reply → FaucetAsync Response}

theorem healthz_uses : Uses (aside · = true) (healthz config) := by
  refine ⟨rfl, fun balance => ?_⟩
  cases balance with
  | ok balance => exact ⟨rfl, fun _ => ⟨rfl, fun _ => trivial⟩⟩
  | error e => exact ⟨rfl, fun _ => trivial⟩

theorem reject_uses (response : Response) :
    Uses (aside · = true) (.call .rejectBody fun _ => .pure response : FaucetAsync Response) :=
  ⟨rfl, fun _ => trivial⟩

theorem drip_calls (run : (drip config request).Runs past (.call op resume)) :
    Stage config request past op ∨ aside op = true := by
  cases run with
  | nil => exact .inr rfl
  | call body parsed =>
    cases body with
    | error e => exact .inr ((reject_uses _).of_call parsed)
    | ok text =>
      dsimp only at parsed
      split at parsed
      next valid =>
        cases parsed with
        | nil => exact .inl .limiting
        | call limited asked =>
          match limited with
          | .error e => cases ((runs_throw_iff _).1 asked).2
          | .ok (now, some reject) => cases ((runs_pure_iff _).1 asked).2
          | .ok (now, none) =>
            cases asked with
            | nil => exact .inl .transferring
            | call transferred paid =>
              match transferred with
              | .error e => cases ((runs_throw_iff _).1 paid).2
              | .ok txId =>
                cases paid with
                | nil => exact .inl .booking
                | call inserted booked =>
                  match inserted with
                  | .error e => cases ((runs_throw_iff _).1 booked).2
                  | .ok _ => cases ((runs_pure_iff _).1 booked).2
      next => exact .inr ((reject_uses _).of_call parsed)

theorem server_calls (run : (server config request).Runs past (.call op resume)) :
    Stage config request past op ∨ aside op = true := by
  rcases run.of_handle_call with ⟨inner, routing⟩ | ⟨own, e, later, -, catching⟩
  · unfold route at routing
    split at routing
    · exact .inr (healthz_uses.of_call routing)
    split at routing
    · have uses : Uses (aside · = true) (.call .getMetrics fun metrics =>
        .pure (.metrics metrics) : FaucetAsync Response) := ⟨rfl, fun _ => trivial⟩
      exact .inr (uses.of_call routing)
    split at routing
    · exact drip_calls routing
    · cases routing
  · have uses : Uses (aside · = true) (.call .countError fun _ =>
      .pure (.failed e) : FaucetAsync Response) := ⟨rfl, fun _ => trivial⟩
    exact .inr (uses.of_call catching)

end

/-! What an allowed request has found on the books. -/

section
variable {config : Config} {drips : List Drip} {address ip : String} {now : Int}

theorem cooling_eq_none {last : Option Int} {cooldown : Nat} :
    cooling last now cooldown = none ↔ ∀ t, last = some t → t ≠ 0 → cooldown ≤ now - t := by
  cases last with
  | none => simp [cooling]
  | some t =>
    unfold cooling
    dsimp only
    split
    next hot => exact ⟨nofun, fun cold => absurd (cold t rfl hot.1) (by omega)⟩
    next cold =>
      refine ⟨fun _ t' same nonzero => ?_, fun _ => rfl⟩
      cases same
      by_contra hot
      exact cold ⟨nonzero, by omega⟩

theorem rateLimit_eq_none : rateLimit config drips address ip now = none ↔
    cooling (lastWhere drips (·.address = address)) now config.addrCooldownSecs = none ∧
    cooling (lastWhere drips (·.ip = ip)) now config.ipCooldownSecs = none ∧
    (0 < config.dailyBudget →
      sumSince drips (now - 86400) + config.amount ≤ config.dailyBudget) := by
  unfold rateLimit
  cases cooling (lastWhere drips (·.address = address)) now config.addrCooldownSecs with
  | some left => simp
  | none =>
    cases cooling (lastWhere drips (·.ip = ip)) now config.ipCooldownSecs with
    | some left => simp
    | none => simp

theorem sumSince_eq (first : Int) :
    sumSince drips first = spentSince first (drips.map Drip.use) := by
  rw [spentSince, total, sumSince, List.filter_map, List.map_map]
  rfl

end

/-! The budget over whole runs. -/

section
variable {config : Config} {k : Nat}

/-- No day's drips come to more than the budget and what can be owing beside one drip. -/
abbrev Budgeted (config : Config) (k : Nat) (drips : List Drip) (owing : List Use) : Prop :=
  Kept 86400 config.dailyBudget config.amount k (drips.map Drip.use) owing

theorem owed_aside {request : Request} {past : List FaucetCall} {op : FaucetOp}
    (other : aside op = true) (reply : op.Reply) (before after : FaucetAsync Response) :
    owed config ⟨request, past ++ [⟨op, reply⟩], after⟩ = owed config ⟨request, past, before⟩ := by
  have unpassed : passes ⟨op, reply⟩ = none := by cases op <;> first | rfl | cases other
  have unreleased : released ⟨op, reply⟩ = false := by cases op <;> first | rfl | cases other
  simp [owed, unpassed, unreleased]

theorem perform_drips_aside {op : FaucetOp} (other : aside op = true) (state : State)
    (answer : op.Reply) : (state.perform config op answer).2.drips = state.drips := by
  cases op <;> first | rfl | cases other

theorem Budgeted.advance {pool : FaucetPool} {index : Nat} {request : Request}
    {past : List FaucetCall} {op : FaucetOp} {resume : op.Reply → FaucetAsync Response}
    (kept : Budgeted config k pool.shared.drips (owing config pool))
    (budgeted : 0 < config.dailyBudget)
    (waiting : pool.threads[index]? = some ⟨request, past, .call op resume⟩)
    (run : (server config request).Runs past (.call op resume)) (answer : op.Reply)
    (room : (owing config
      (pool.advance (system config) index request past op resume answer)).length ≤ k) :
    Budgeted config k (pool.shared.perform config op answer).2.drips
      (owing config (pool.advance (system config) index request past op resume answer)) := by
  have moves : (_ ++ owing config (pool.advance (system config) index request past op resume
      answer)).Perm (_ ++ owing config pool) := Pool.perm_advance waiting answer (owed config)
  generalize owing config (pool.advance (system config) index request past op resume answer) =
    after at moves room
  rcases server_calls run with stage | other
  · cases stage with
    | @limiting text =>
      cases answer with
      | error e => exact kept.perm moves
      | ok _ =>
        cases limited : rateLimit config pool.shared.drips (asciiLower text) (clientIp request)
          pool.shared.clock with
        | some reject =>
          simp only [system, State.perform, limited] at moves ⊢
          exact kept.perm moves
        | none =>
          simp only [system, State.perform, limited] at moves ⊢
          have granted : after.Perm (⟨pool.shared.clock, config.amount⟩ :: owing config pool) :=
            moves
          have added : after.length = (owing config pool).length + 1 := granted.length_eq
          obtain ⟨-, -, fits⟩ := rateLimit_eq_none.1 limited
          rw [sumSince_eq] at fits
          exact (kept.grant ⟨pool.shared.clock, config.amount⟩ (fits budgeted) (Nat.le_refl _)
            (by omega)).perm granted
    | transferring =>
      cases answer with
      | error e => exact kept.drop (show (_ :: after).Perm (owing config pool) from moves)
      | ok txId => exact kept.perm ((List.perm_append_left_iff _).1 moves)
    | booking =>
      cases answer with
      | error e => exact kept.perm ((List.perm_append_left_iff _).1 moves)
      | ok _ =>
        have booked := kept.settle (show (_ :: after).Perm (owing config pool) from moves)
        simp only [State.perform, Budgeted, List.map_append]
        exact booked
  · rw [owed_aside other _ (.call op resume)] at moves
    rw [perform_drips_aside other]
    exact kept.perm ((List.perm_append_left_iff _).1 moves)

/-- However the requests interleave, the drips that a day has on the books or that the wallet may
still make come to no more than the budget and a drip for each other request under way. -/
theorem drips_within_budget (config : Config) (k : Nat) (clock : Int) (pool : FaucetPool)
    (budgeted : 0 < config.dailyBudget)
    (reached : ReachableBy (system config) (fun _ after => (owing config after).length ≤ k)
      (.opened clock) pool) (first : Int) :
    spent first (first + 86400) (pool.shared.drips.map Drip.use ++ owing config pool) ≤
      config.dailyBudget + (k - 1) * config.amount := by
  refine (reached.invariant (fun pool => Budgeted config k pool.shared.drips (owing config pool))
    .nil fun before after run kept step room => ?_).within first
  cases step with
  | start request may =>
    rw [owing, Pool.start, List.filterMap_append]
    exact (List.append_nil (owing config before)).symm ▸ kept
  | shift next may =>
    have same : next.drips = before.shared.drips := may
    rw [Pool.shift, same]
    exact kept
  | advance answer waiting =>
    exact kept.advance budgeted waiting (run.runs _ (List.mem_of_getElem? waiting)) answer room

end

/-! Two requests under way at once, and a budget of one drip. -/

def oneDrip : Config := ⟨"fa", 5, 3600, 60, 5⟩

def posted (address : String) : (op : FaucetOp) → op.Reply
  | .readBody => .ok address
  | .rateLimit _ _ => .ok (0, none)
  | .transfer _ _ _ => .ok "01"
  | .insertDrip _ => .ok ()
  | .getBalance _ => .ok 0
  | .getMetrics => {}
  | .rejectBody => ()
  | .setBalance _ => ()
  | .countError => ()

def post (ip : String) : Request := ⟨"POST", "/faucet", none, some ip⟩

abbrev FaucetMove := Move State FaucetOp FaucetOp.Reply Request

def turns (index count : Nat) (address : Char) : List FaucetMove :=
  .replicate count (.advance index (posted (.ofList (.replicate 64 address))))

def faucetPool (config : Config) (moves : List FaucetMove) : FaucetPool :=
  (Pool.fresh (.opened 20)).play (system config) moves

def overlapping : List FaucetMove :=
  .start (post "10.0.0.1") :: turns 0 2 'a' ++ .start (post "10.0.0.2") :: turns 1 2 'b' ++
    turns 0 2 'a' ++ turns 1 2 'b'

theorem drips_within_budget_overlapping :
    spent 0 86400 ((faucetPool oneDrip overlapping).shared.drips.map Drip.use ++
      owing oneDrip (faucetPool oneDrip overlapping)) = 10 ∧
    spent 0 86400 ((faucetPool oneDrip overlapping).shared.drips.map Drip.use ++
      owing oneDrip (faucetPool oneDrip overlapping)) ≤ 10 := by
  refine ⟨by decide +kernel, drips_within_budget oneDrip 2 20 _ (by decide)
    (Pool.play_reachableBy ?_ (by decide +kernel)) 0⟩
  simp only [overlapping, turns, List.append_assoc, List.cons_append]
  refine ⟨trivial, Pool.allowed_advances 2 ⟨trivial, Pool.allowed_advances 2
    (Pool.allowed_advances 2 ?_)⟩⟩
  exact List.append_nil (List.replicate 2 _) ▸ Pool.allowed_advances 2 trivial

/-! The cooldowns over whole runs. -/

def booked : FaucetCall → Option Drip
  | ⟨.insertDrip drip, .ok _⟩ => some drip
  | _ => none

section
variable {config : Config} {clock : Int} {pool : FaucetPool} {event : FaucetEvent}

theorem drips_after (performed : event.PerformedBy (system config)) :
    event.after.drips = event.before.drips ++ (booked event.call).toList := by
  obtain ⟨_, _, _, before, op, answer, rfl⟩ := performed
  cases op with
  | rateLimit address ip =>
    cases answer with
    | error e => exact (List.append_nil _).symm
    | ok _ =>
      simp only [system, State.perform]
      split <;> exact (List.append_nil _).symm
  | insertDrip drip =>
    cases answer with
    | error e => exact (List.append_nil _).symm
    | ok _ => rfl
  | _ => exact (List.append_nil _).symm

theorem lastWhere_ge {drips : List Drip} {p : Drip → Bool} {drip : Drip} (present : drip ∈ drips)
    (hit : p drip = true) : ∃ t, lastWhere drips p = some t ∧ drip.moment ≤ t := by
  have there : drip.moment ∈ (drips.filter p).map (·.moment) :=
    List.mem_map_of_mem (List.mem_filter.2 ⟨present, hit⟩)
  unfold lastWhere
  cases last : ((drips.filter p).map (·.moment)).max? with
  | none =>
    rw [List.max?_eq_none_iff.1 last] at there
    cases there
  | some t => exact ⟨t, rfl, (List.max?_eq_some_iff.1 last).2 _ there⟩

theorem cooldown_of_cold {drips : List Drip} {p : Drip → Bool} {now : Int} {cooldown : Nat}
    (cold : cooling (lastWhere drips p) now cooldown = none) {drip : Drip} (present : drip ∈ drips)
    (hit : p drip = true) (later : 0 < drip.moment) : cooldown ≤ now - drip.moment := by
  obtain ⟨t, last, le⟩ := lastWhere_ge present hit
  have := cooling_eq_none.1 cold t last (by omega)
  omega

theorem limits_of_passes (performed : event.PerformedBy (system config)) {address ip : String}
    {now : Int} (checks : event.call.op = .rateLimit address ip)
    (passed : passes event.call = some now) :
    rateLimit config event.before.drips address ip now = none := by
  obtain ⟨_, _, _, before, op, answer, rfl⟩ := performed
  obtain rfl : op = .rateLimit address ip := checks
  cases answer with
  | error e => cases passed
  | ok _ =>
    simp only [system, State.perform] at passed
    split at passed
    · cases passed
    next limited =>
      cases passed
      exact limited

/-- A request that passes after a drip to its address, or for its client, was booked comes a
cooldown after that drip. -/
theorem cooldowns_kept (config : Config) (clock : Int) (pool : FaucetPool)
    (reached : Reachable (system config) (.opened clock) pool)
    {earlier during later : List FaucetEvent} {first second : FaucetEvent}
    (split : pool.log = earlier ++ first :: (during ++ second :: later)) {drip : Drip}
    (books : booked first.call = some drip) {address ip : String} {now : Int}
    (checks : second.call.op = .rateLimit address ip) (passed : passes second.call = some now)
    (since : 0 < drip.moment) :
    (drip.address = address → config.addrCooldownSecs ≤ now - drip.moment) ∧
    (drip.ip = ip → config.ipCooldownSecs ≤ now - drip.moment) := by
  have performed (event : FaucetEvent) (logged : event ∈ pool.log) :=
    reached.performedBy event logged
  have present : drip ∈ second.before.drips := by
    refine reached.between (fun state => state.drips) (fun _ _ may => may) (drip ∈ ·) split ?_
      fun event there kept => ?_
    · rw [drips_after (performed first (by simp [split])), books]
      simp
    · rw [drips_after (performed event (by simp [split, there]))]
      exact List.mem_append_left _ kept
  obtain ⟨byAddress, byIp, -⟩ := rateLimit_eq_none.1
    (limits_of_passes (performed second (by simp [split])) checks passed)
  exact ⟨fun same => cooldown_of_cold byAddress present (by simpa using same) since,
    fun same => cooldown_of_cold byIp present (by simpa using same) since⟩

end

/-! One client comes back after an hour. -/

def hourly : Config := { oneDrip with dailyBudget := 0 }

def returning : List FaucetMove :=
  .start (post "10.0.0.1") :: turns 0 4 'a' ++ .shift (fun state => { state with clock := 3620 }) ::
    .start (post "10.0.0.1") :: turns 1 2 'a'

theorem cooldowns_kept_returning :
    (faucetPool hourly returning).threads.map (fun thread => thread.past.findSome? passes) =
      [some 20, some 3620] ∧ (hourly.addrCooldownSecs : Int) ≤ 3620 - 20 := by
  have reached : Reachable (system hourly) (.opened 20) (faucetPool hourly returning) := by
    refine Pool.play_reachable ?_
    simp only [returning, turns, List.cons_append]
    refine ⟨trivial, Pool.allowed_advances 4 ⟨rfl, trivial, ?_⟩⟩
    exact List.append_nil (List.replicate 2 _) ▸ Pool.allowed_advances 2 trivial
  obtain ⟨first, second, during, later, split, books, checks, passed⟩ :
      ∃ (first second : FaucetEvent) (during later : List FaucetEvent),
        (faucetPool hourly returning).log =
          (faucetPool hourly returning).log.take 3 ++ first :: (during ++ second :: later) ∧
      booked first.call = some ⟨.ofList (.replicate 64 'a'), "10.0.0.1", 5, "01", 20⟩ ∧
      second.call.op = .rateLimit (.ofList (.replicate 64 'a')) "10.0.0.1" ∧
      passes second.call = some 3620 :=
    ⟨_, _, [_], [], rfl, by decide +kernel, by decide +kernel, by decide +kernel⟩
  exact ⟨by decide +kernel,
    (cooldowns_kept hourly 20 _ reached split books checks passed (by decide)).1 rfl⟩

end Faucet
end ExferHonor
