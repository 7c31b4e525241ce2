/-
# Igmpproxy.Routes -- the routing table of the multicast proxy (rttable.c)

The table of groups with the state of the membership that the proxy keeps upstream for each,
and what its functions do outside: memberships of the group socket, kernel routes, and ACCEPT
rules for a group in the FORWARD chain, which `iptables -I` puts in front and `iptables -D`
takes out once if it is there.

A pointer to a route is its group, as no two routes have the same.  The upstream interface is
fixed, so that a rule is its group.  What other files answer is an argument: whether all members
of a group have left (`all_member_leaved`), whether the sweep of the switch table ends a group
(`sweap_no_report_members`), and the lines of /proc/net/ip_mr_cache.  Each change of the table
or of the rules leaves a `Moment`.  A write to a route that was just freed is a write nowhere.
-/
import RouterApps.CLib.Memory

namespace RouterApps.Igmpproxy

open CLib List

/-! ## Data -/

/-- `ROUTESTATE_...` -/
inductive UpstrState
  | notJoined
  | joined
  | checkLastMember
deriving DecidableEq

/-- `struct RouteTable`, without its links. -/
structure Route where
  group : UInt32
  originAddr : UInt32
  vifBits : UInt32
  upstrState : UpstrState
  ageVifBits : UInt32
  ageValue : Int
  ageActivity : Int
deriving DecidableEq

/-- The part of `struct Config` that the table reads, and the index of the wan1 interface. -/
structure Config where
  robustnessValue : Int
  lastMemberQueryCount : Int
  fastUpstreamLeave : Bool
  wanIndex : Option UInt32

inductive Call
  | joinMcGroup (group : UInt32)
  | leaveMcGroup (group : UInt32)
  | addMRoute (group originAddr vifBits : UInt32)
  | delMRoute (group originAddr vifBits : UInt32)
  | removeMulticastIp (group : UInt32)
deriving DecidableEq

/-- The groups in the table and the rules in the chain, between two changes. -/
structure Moment where
  groups : List UInt32
  rules : List UInt32
deriving DecidableEq

structure Proxy where
  routes : List Route
  rules : List UInt32
  calls : List Call
  moments : List Moment
  distinct : (routes.map Route.group).Nodup

/-- After `initRouteTable`. -/
def initRouteTable : Proxy := ⟨[], [], [], [⟨[], []⟩], nodup_nil⟩

def Proxy.now (p : Proxy) : Moment := ⟨p.routes.map Route.group, p.rules⟩

def Proxy.note (p : Proxy) : Proxy := { p with moments := p.moments ++ [p.now] }

def Proxy.call (p : Proxy) (call : Call) : Proxy := { p with calls := p.calls ++ [call] }

def findRoute (p : Proxy) (group : UInt32) : Option Route := p.routes.find? fun r => r.group = group

/-! ## Changes of the table -/

theorem map_group_replace (routes : List Route) (route : Route) :
    (routes.map fun r => if r.group = route.group then route else r).map Route.group = routes.map Route.group := by
  rw [List.map_map]
  refine map_congr_left fun r _ => ?_
  simp only [Function.comp]
  split
  · rename_i own
    exact own.symm
  · rfl

/-- A write through a pointer to a route. -/
def Proxy.store (p : Proxy) (route : Route) : Proxy :=
  { p with
    routes := p.routes.map fun r => if r.group = route.group then route else r
    distinct := by
      rw [map_group_replace]
      exact p.distinct }

/-- A new route goes before the first one with a greater group. -/
def Proxy.link (p : Proxy) (route : Route) (absent : findRoute p route.group = none) : Proxy :=
  Proxy.note
    { p with
      routes := p.routes.orderedInsert (fun a b => a.group < b.group) route
      distinct := by
        have reordered := (perm_orderedInsert (fun a b : Route => a.group < b.group) route p.routes).map Route.group
        rw [reordered.nodup_iff, map_cons, nodup_cons]
        refine ⟨fun listed => ?_, p.distinct⟩
        obtain ⟨r, inTable, own⟩ := List.mem_map.1 listed
        exact absurd own (by simpa using find?_eq_none.1 absent r inTable) }

def Proxy.unlink (p : Proxy) (group : UInt32) : Proxy :=
  Proxy.note
    { p with
      routes := p.routes.filter fun r => r.group ≠ group
      distinct := (filter_sublist.map Route.group).nodup p.distinct }

def Proxy.clear (p : Proxy) : Proxy := Proxy.note { p with routes := [], distinct := nodup_nil }

/-! ## Memberships and rules -/

def Proxy.iptablesInsert (p : Proxy) (group : UInt32) : Proxy := Proxy.note { p with rules := group :: p.rules }

def Proxy.iptablesDelete (p : Proxy) (group : UInt32) : Proxy := Proxy.note { p with rules := p.rules.erase group }

/-- `sendJoinLeaveUpstream`; the route is returned for the caller to store. -/
def sendJoinLeaveUpstream (p : Proxy) (route : Route) (join : Bool) : Proxy × Route :=
  if join then
    if route.vifBits > 0 then
      ((p.call (.joinMcGroup route.group)).iptablesInsert route.group, { route with upstrState := .joined })
    else (p, route)
  else if route.upstrState ≠ .notJoined then
    ((p.call (.leaveMcGroup route.group)).iptablesDelete route.group, { route with upstrState := .notJoined })
  else (p, route)

def Proxy.send (p : Proxy) (route : Route) (join : Bool) : Proxy :=
  let (p, route) := sendJoinLeaveUpstream p route join
  p.store route

/-- `internUpdateKernelRoute`; it returns 1 always. -/
def internUpdateKernelRoute (p : Proxy) (route : Route) (activate : Bool) : Proxy :=
  if activate then p.call (.addMRoute route.group route.originAddr route.vifBits)
  else p.call (.delMRoute route.group route.originAddr route.vifBits)

/-! ## Reports and activations -/

def inMulticast (address : UInt32) : Bool := address &&& 0xf0000000 = 0xe0000000

def maxMcVifs : Int := 32

def bitSet (bits : UInt32) (ifx : Int) : UInt32 := bits ||| (1 <<< UInt32.ofNat ifx.toNat)

/-- The route that `insertRoute` makes. -/
def newRoute (conf : Config) (group : UInt32) (ifx : Int) : Route where
  group := group
  originAddr := 0
  vifBits := if ifx ≥ 0 then bitSet 0 ifx else 0
  upstrState := .notJoined
  ageVifBits := if ifx ≥ 0 then bitSet 0 ifx else 0
  ageValue := conf.robustnessValue
  ageActivity := 0

/-- The checks of `insertRoute`. -/
def accepts (group : UInt32) (ifx : Int) : Bool := inMulticast (ntohl group) && ifx < maxMcVifs

/-- `insertRoute`; its result, which no caller reads, is `accepts group ifx`. -/
def insertRoute (conf : Config) (p : Proxy) (group : UInt32) (ifx : Int) : Proxy :=
  if !accepts group ifx then p
  else
    match absent : findRoute p group with
    | none =>
      let route := newRoute conf group ifx
      let p := p.link route absent
      let p := if ifx ≥ 0 then internUpdateKernelRoute p route true else p
      p.send route true
    | some croute =>
      let route :=
        if ifx ≥ 0 then
          { croute with vifBits := bitSet croute.vifBits ifx, ageVifBits := bitSet croute.ageVifBits ifx }
        else croute
      let p := p.store route
      let p := if ifx ≥ 0 ∧ route.originAddr ≠ 0 then internUpdateKernelRoute p route true else p
      if route.upstrState ≠ .joined then p.send route true else p

/-- `activateRoute` with its result. -/
def activateRoute (conf : Config) (p : Proxy) (group originAddr : UInt32) : Proxy × Bool :=
  let p := if (findRoute p group).isNone then insertRoute conf p group (-1) else p
  match findRoute p group with
  | none => (p, false)
  | some croute =>
    let route := if originAddr > 0 then { croute with originAddr := originAddr } else croute
    let p := p.store route
    if route.vifBits > 0 then (internUpdateKernelRoute p route true, true) else (p, false)

/-! ## Leaves and ageing -/

def setRouteLastMemberMode (conf : Config) (p : Proxy) (group : UInt32) (allMemberLeaved : Bool) : Proxy :=
  match findRoute p group with
  | none => p
  | some croute =>
    let (p, route) :=
      if croute.upstrState = .joined ∧ conf.fastUpstreamLeave ∧ allMemberLeaved then
        sendJoinLeaveUpstream p croute false
      else (p, croute)
    p.store { route with upstrState := .checkLastMember, ageValue := conf.lastMemberQueryCount }

def removeRoute (conf : Config) (p : Proxy) (croute : Route) : Proxy :=
  let p := internUpdateKernelRoute p croute false
  let p :=
    if croute.upstrState = .joined ∨ (croute.upstrState = .checkLastMember ∧ !conf.fastUpstreamLeave) then
      p.send croute false
    else p
  p.unlink croute.group

/-- The counters of `internAgeRoute`, before it looks at the age. -/
def aged (conf : Config) (croute : Route) : Route :=
  let route := { croute with ageValue := croute.ageValue - 1 }
  if route.ageVifBits > 0 ∧ route.ageActivity = 0 then
    if route.vifBits = route.ageVifBits then { route with ageValue := conf.robustnessValue }
    else { route with ageActivity := route.ageActivity + 1, vifBits := route.ageVifBits }
  else if route.ageActivity > 0 then
    if route.vifBits ≠ route.ageVifBits then
      { route with vifBits := route.vifBits ||| route.ageVifBits, ageActivity := route.ageActivity + 1 }
    else route
  else route

/-- The route has reached its age without activity. -/
def dies (conf : Config) (croute : Route) : Bool :=
  (aged conf croute).ageValue = 0 && !((aged conf croute).ageActivity > 0)

/-- `internAgeRoute` with its result. -/
def internAgeRoute (conf : Config) (p : Proxy) (croute : Route) : Proxy × Bool :=
  let route := aged conf croute
  if dies conf croute then
    (removeRoute conf ((p.store route).call (.removeMulticastIp (ntohl route.group))) route, true)
  else if route.ageValue = 0 then
    (internUpdateKernelRoute (p.store
      { route with ageValue := route.ageActivity, ageActivity := 0, ageVifBits := 0 }) route true, true)
  else (p.store { route with ageVifBits := 0 }, false)

/-- `lastMemberGroupAge` with its result. -/
def lastMemberGroupAge (conf : Config) (p : Proxy) (group : UInt32) : Proxy × Bool :=
  match findRoute p group with
  | none => (p, false)
  | some croute =>
    if croute.upstrState = .checkLastMember then
      let (p, result) := internAgeRoute conf p croute
      (p, !result)
    else (p, false)

/-- A loop over the routes; each may remove the route it is at. -/
def forEachRoute (body : Proxy → Route → Proxy) : List UInt32 → Proxy → Proxy
  | [], p => p
  | group :: rest, p =>
    match findRoute p group with
    | none => forEachRoute body rest p
    | some croute => forEachRoute body rest (body p croute)

/-- A line of /proc/net/ip_mr_cache; a field that is not there is `none`. -/
structure CacheLine where
  group : Option UInt32
  origin : Option UInt32

def upnpMcastAddr : UInt32 := htonl 0xEFFFFFFA

/-- A turn of the loop of `ipmrcache_gc`. -/
def collectLine (conf : Config) (p : Proxy) (line : CacheLine) : Proxy :=
  match line.group, line.origin with
  | some group, some origin =>
    if group = upnpMcastAddr ∨ (findRoute p group).isSome then p
    else
      let croute : Route := ⟨group, origin, conf.wanIndex.getD 0, .joined, 0, 0, 0⟩
      let p := if conf.wanIndex.isSome then internUpdateKernelRoute p croute false else p
      (sendJoinLeaveUpstream p croute false).1
  | _, _ => p

def ageActiveRoutes (conf : Config) (p : Proxy) (sweap : UInt32 → Bool) (cache : List CacheLine) : Proxy :=
  let p := forEachRoute (fun p croute => if sweap croute.group then removeRoute conf p croute else p)
    (p.routes.map Route.group) p
  let p := forEachRoute (fun p croute =>
      if croute.upstrState ≠ .checkLastMember then (internAgeRoute conf p croute).1 else p)
    (p.routes.map Route.group) p
  cache.foldl (collectLine conf) p

/-- `clearAllRoutes`; the table is emptied after the loop. -/
def clearAllRoutes (p : Proxy) : Proxy :=
  (forEachRoute (fun p croute => (internUpdateKernelRoute p croute false).send croute false)
    (p.routes.map Route.group) p).clear

/-! ## Runs -/

/-- A call, with what other files answer during it. -/
inductive Step
  | insertRoute (group : UInt32) (ifx : Int)
  | activateRoute (group originAddr : UInt32)
  | setRouteLastMemberMode (group : UInt32) (allMemberLeaved : Bool)
  | lastMemberGroupAge (group : UInt32)
  | ageActiveRoutes (sweap : UInt32 → Bool) (cache : List CacheLine)
  | clearAllRoutes

def perform (conf : Config) (p : Proxy) : Step → Proxy
  | .insertRoute group ifx => insertRoute conf p group ifx
  | .activateRoute group originAddr => (activateRoute conf p group originAddr).1
  | .setRouteLastMemberMode group allMemberLeaved => setRouteLastMemberMode conf p group allMemberLeaved
  | .lastMemberGroupAge group => (lastMemberGroupAge conf p group).1
  | .ageActiveRoutes sweap cache => ageActiveRoutes conf p sweap cache
  | .clearAllRoutes => clearAllRoutes p

end RouterApps.Igmpproxy
