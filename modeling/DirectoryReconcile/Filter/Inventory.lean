import DirectoryReconcile.Json

/-!
# Host inventories

An inventory maps each host to its variables. The first host's variables name the hosts that serve
names, and those hosts' variables hold their addresses.
-/

namespace DirectoryReconcile.Inventory

/-- The group whose members serve names. -/
def serverGroup : String := "freeipa_servers"

def addressVariable : String := "ipa_ip_addr"

/-- The members of the server group, according to the first host. -/
def servers (hosts : Dict Json) : List Json :=
  (do (← (← (← hosts.values.head?).get? "groups").get? serverGroup).asArray?).getD []

def address? (hosts : Dict Json) (server : Json) : Option String := do
  (← (← hosts.get? (← server.asString?)).get? addressVariable).asString?

/-- The addresses of the servers that have one. -/
def serverAddresses (inventory : Json) : List String :=
  (servers inventory.fields).filterMap (address? inventory.fields)

end DirectoryReconcile.Inventory
