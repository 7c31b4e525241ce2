/-
# Dhcplib.Config -- the DHCP server's configuration in the store (new_dhcplib.c)

`dhcpd_commit_config` prints the configuration into six settings, three of them lists of fields with
commas between them; `dhcpd_read_config` takes the lists apart with `strtok` and copies what it finds
into the caller's structure.  The type of the arrays is a parameter of the structure: `CharArray` where
they hold strings, `Block` for the caller's memory.

`dhcpd_commit_config` also writes the file `config_file` names.  If that is the configuration store
itself (`names`), the settings are gone.
-/
import RouterApps.CLib.Fields
import RouterApps.GenConfig.Iconfig

namespace RouterApps.Dhcplib

open CLib GenConfig CString

structure DhcpdConfT (Str : Nat → Type) where
  ifname : Str 16
  sip : Str 20
  eip : Str 20
  gw : Str 20
  mask : Str 20
  dns1 : Str 20
  dns2 : Str 20
  autotime : Int32
  leasetime : Int32
  maxStaticLease : Int32
  dnsSuffix : Str 32
  leaseFile : Str 256
  staticLeaseFile : Str 256
  configFile : Str 256
  miprange : Int32

def comma : UInt8 := 44

def space : UInt8 := 32

/-! ## Names of the settings, and defaults -/

def dhcpdConf : CString := ofBuffer (ascii ['d', 'h', 'c', 'p', 'd', '_', 'c', 'o', 'n', 'f'])

def dhcpdDns : CString := ofBuffer (ascii ['d', 'h', 'c', 'p', 'd', '_', 'd', 'n', 's'])

def dhcpdOpt : CString := ofBuffer (ascii ['d', 'h', 'c', 'p', 'd', '_', 'o', 'p', 't'])

def dhcpdConfigfile : CString :=
  ofBuffer (ascii ['d', 'h', 'c', 'p', 'd', '_', 'c', 'o', 'n', 'f', 'i', 'g', 'f', 'i', 'l', 'e'])

def dhcpdLeaseFile : CString :=
  ofBuffer (ascii ['d', 'h', 'c', 'p', 'd', '_', 'l', 'e', 'a', 's', 'e', '_', 'f', 'i', 'l', 'e'])

def dhcpdStaticLeaseFile : CString :=
  ofBuffer (ascii ['d', 'h', 'c', 'p', 'd', '_', 's', 't', 'a', 't', 'i', 'c', '_', 'l', 'e', 'a',
    's', 'e', '_', 'f', 'i', 'l', 'e'])

def udhcpdConfFile : CString :=
  ofBuffer (ascii ['/', 'e', 't', 'c', '/', 'u', 'd', 'h', 'c', 'p', 'd', '.', 'c', 'o', 'n', 'f'])

def udhcpdLeaseFile : CString :=
  ofBuffer (ascii ['/', 'v', 'a', 'r', '/', 'l', 'i', 'b', '/', 'd', 'h', 'c', 'p', '/', 'u', 'd',
    'h', 'c', 'p', 'd', '.', 'l', 'e', 'a', 's', 'e', 's'])

def udhcpdStaticLeaseFile : CString :=
  ofBuffer (ascii ['/', 'v', 'a', 'r', '/', 'l', 'i', 'b', '/', 'd', 'h', 'c', 'p', '/', 'u', 'd',
    'h', 'c', 'p', 'd', '.', 's', 't', 'a', 't', 'i', 'c'])

/-- `192.168.0.2`, `192.168.0.254`, `192.168.0.1` and `255.255.255.0`. -/
def defaultSip : CString := (inetNtoa (leWord [192, 168, 0, 2])).toCString

def defaultEip : CString := (inetNtoa (leWord [192, 168, 0, 254])).toCString

def defaultGw : CString := (inetNtoa (leWord [192, 168, 0, 1])).toCString

def defaultMask : CString := (inetNtoa (leWord [255, 255, 255, 0])).toCString

/-! ## Reading -/

/-- `if (ptr) strcpy(dst, ptr)`. -/
def copyToken {n : Nat} (ptr : Option CString) (dst : Block n) : Option (Block n) :=
  match ptr with
  | some token => dst.strcpy token
  | none => some dst

/-- `if (ptr) dst = atoi(ptr)`. -/
def atoiToken (ptr : Option CString) (dst : Int32) : Int32 :=
  match ptr with
  | some token => atoi token
  | none => dst

/-- A setting, copied into `value[1024]`; `none` inside when it is not set. -/
def setting (file : File) (tag : CString) : Option (Option CString) := do
  let (found, text) ← iconfigGetValueDirect file tag
  let value ← strcpy 1024 text
  some (if found = -1 then none else some value.toCString)

def readConf (ifLocal : CString) (value : Option CString) (conf : DhcpdConfT Block) : Option (DhcpdConfT Block) :=
  match value with
  | none => do
    let ifname ← conf.ifname.strcpy ifLocal
    let sip ← conf.sip.strcpy defaultSip
    let eip ← conf.eip.strcpy defaultEip
    let gw ← conf.gw.strcpy defaultGw
    let mask ← conf.mask.strcpy defaultMask
    some { conf with ifname := ifname, sip := sip, eip := eip, gw := gw, mask := mask }
  | some value => do
    let (ptr, rest) := nextToken [comma, lf] value
    let ifname ← copyToken ptr conf.ifname
    let (ptr, rest) := nextToken [comma, lf] rest
    let sip ← copyToken ptr conf.sip
    let (ptr, rest) := nextToken [comma, lf] rest
    let eip ← copyToken ptr conf.eip
    let (ptr, rest) := nextToken [comma, lf] rest
    let gw ← copyToken ptr conf.gw
    let (ptr, _) := nextToken [comma, lf] rest
    let mask ← copyToken ptr conf.mask
    some { conf with ifname := ifname, sip := sip, eip := eip, gw := gw, mask := mask }

def readDns (value : Option CString) (conf : DhcpdConfT Block) : Option (DhcpdConfT Block) :=
  match value with
  | none => do
    let dns1 ← conf.dns1.strcpy defaultGw
    let dns2 ← conf.dns2.strcpy empty
    some { conf with dns1 := dns1, dns2 := dns2 }
  | some value => do
    let (ptr, rest) := nextToken [comma, lf] value
    let dns1 ← copyToken ptr conf.dns1
    let (ptr, _) := nextToken [comma, lf] rest
    let dns2 ← copyToken ptr conf.dns2
    some { conf with dns1 := dns1, dns2 := dns2 }

def readOpt (value : Option CString) (conf : DhcpdConfT Block) : Option (DhcpdConfT Block) :=
  match value with
  | none => do
    let dnsSuffix ← conf.dnsSuffix.strcpy empty
    some { conf with
      leasetime := 864000, dnsSuffix := dnsSuffix, autotime := 30, maxStaticLease := 200 }
  | some value => do
    let (ptr, rest) := nextToken [comma, lf] value
    let leasetime := atoiToken ptr conf.leasetime
    let (ptr, rest) := nextToken [comma, lf] rest
    let autotime := atoiToken ptr conf.autotime
    let (ptr, rest) := nextToken [comma, lf] rest
    let maxStaticLease := atoiToken ptr conf.maxStaticLease
    let (ptr, _) := nextToken [comma, space, lf] rest
    let dnsSuffix ← conf.dnsSuffix.strcpy (ptr.getD empty)
    some { conf with
      leasetime := leasetime, autotime := autotime, maxStaticLease := maxStaticLease,
      dnsSuffix := dnsSuffix }

/-- A path is read straight into its array, and replaced by the default if it is not
set. -/
def readPath (file : File) (tag default : CString) (dst : Block 256) : Option (Block 256) := do
  let (found, text) ← iconfigGetValueDirect file tag
  let dst ← dst.strcpy text
  if found = -1 then dst.strcpy default else some dst

def dhcpdReadConfig (ifLocal : CString) (file : File) (conf : DhcpdConfT Block) :
    Option (DhcpdConfT Block) := do
  let conf ← readConf ifLocal (← setting file dhcpdConf) conf
  let conf ← readDns (← setting file dhcpdDns) conf
  let conf ← readOpt (← setting file dhcpdOpt) conf
  let leaseFile ← readPath file dhcpdLeaseFile udhcpdLeaseFile conf.leaseFile
  let staticLeaseFile ← readPath file dhcpdStaticLeaseFile udhcpdStaticLeaseFile conf.staticLeaseFile
  let configFile ← readPath file dhcpdConfigfile udhcpdConfFile conf.configFile
  some { conf with leaseFile := leaseFile, staticLeaseFile := staticLeaseFile, configFile := configFile }

/-! ## Writing -/

section

variable (c : DhcpdConfT CharArray)

/-- `"%s,%s,%s,%s,%s"`: at most 95 bytes, so it fits `value[1024]`, as the next two do. -/
def confText : CString :=
  joinFields comma [c.ifname.toCString, c.sip.toCString, c.eip.toCString, c.gw.toCString, c.mask.toCString]

/-- `"%s,%s"`. -/
def dnsText : CString := joinFields comma [c.dns1.toCString, c.dns2.toCString]

/-- `"%d,%d,%d,%s "`. -/
def optText : CString :=
  joinFields comma [formatInt c.leasetime, formatInt c.autotime, formatInt c.maxStaticLease,
    ofBuffer (c.dnsSuffix.bytes ++ [space])]

/-- One line of `update_udhcpd_config`. -/
def udhcpdLine (word : List Char) (value : List UInt8) : List UInt8 :=
  ascii word ++ space :: (value ++ [lf])

/-- The file `update_udhcpd_config` writes. -/
def udhcpdConfText : List UInt8 :=
  udhcpdLine ['s', 't', 'a', 'r', 't'] c.sip.bytes ++
  udhcpdLine ['e', 'n', 'd'] c.eip.bytes ++
  udhcpdLine ['i', 'n', 't', 'e', 'r', 'f', 'a', 'c', 'e'] c.ifname.bytes ++
  udhcpdLine ['a', 'u', 't', 'o', '_', 't', 'i', 'm', 'e'] (formatInt c.autotime).bytes ++
  (if c.dns1.bytes = [] then []
    else udhcpdLine ['o', 'p', 't', 'i', 'o', 'n', ' ', 'd', 'n', 's'] (c.dns1.bytes ++ space :: c.dns2.bytes)) ++
  udhcpdLine ['o', 'p', 't', 'i', 'o', 'n', ' ', 's', 'u', 'b', 'n', 'e', 't'] c.mask.bytes ++
  udhcpdLine ['o', 'p', 't', 'i', 'o', 'n', ' ', 'r', 'o', 'u', 't', 'e', 'r'] c.gw.bytes ++
  (if c.dnsSuffix.bytes = [] then []
    else udhcpdLine ['o', 'p', 't', 'i', 'o', 'n', ' ', 'd', 'o', 'm', 'a', 'i', 'n'] c.dnsSuffix.bytes) ++
  udhcpdLine ['o', 'p', 't', 'i', 'o', 'n', ' ', 'l', 'e', 'a', 's', 'e'] (formatInt c.leasetime).bytes ++
  udhcpdLine ['l', 'e', 'a', 's', 'e', '_', 'f', 'i', 'l', 'e'] c.leaseFile.bytes ++
  udhcpdLine ['s', 't', 'a', 't', 'i', 'c', '_', 'f', 'i', 'l', 'e'] c.staticLeaseFile.bytes ++
  udhcpdLine ['m', 'a', 'x', '_', 's', 't', 'a', 't', 'i', 'c'] (formatInt c.maxStaticLease).bytes

/-- `iconfig_set_value_direct`, as far as the file goes. -/
def store (tag value : CString) : File → Option File :=
  fileAfter (iconfigSetValueDirect tag (some value))

/-- The configuration store after the call. -/
def dhcpdCommitConfig (names : CString → Bool) (file : File) : Option File := do
  let file ← store dhcpdConf (confText c) file
  let file ← store dhcpdDns (dnsText c) file
  let file ← store dhcpdOpt (optText c) file
  let file ← store dhcpdConfigfile c.configFile.toCString file
  let file ← store dhcpdLeaseFile c.leaseFile.toCString file
  let file ← store dhcpdStaticLeaseFile c.staticLeaseFile.toCString file
  some (if names c.configFile.toCString then some (udhcpdConfText c) else file)

end

end RouterApps.Dhcplib
