import CarbonMessaging.CarbonPlatform

/-! Queue operations of the admin service on the broker's management beans. -/

namespace CarbonMessaging.QueueManagementBeans

open JavaLang FaultyCalls

variable {β : Type} (beans : BrokerBeans β)

def queueExists (queueName : Str) : Carbon β Bool :=
  translate (fun e => if e.kind = .jmx then .wrap .queueManager e else e) do
    let result ← invoke (beans.isQueueExists queueName)
    pure (result.getD false)

def createQueue (queueName userName : Str) : Carbon β Unit :=
  translate (fun _ => ⟨.queueManager, some ("Cannot create Queue : ".toList ++ queueName)⟩) do
    invoke (beans.createNewQueue queueName userName true)
    invoke (beans.createNewBinding queueName queueName)

def cannot (action queueName : Str) (e : JavaException) : JavaException :=
  if e.kind = .jmx then
    ⟨.queueManager, some (action ++ queueName ++ " ".toList ++ e.messageText)⟩
  else e

def deleteQueue (queueName : Str) : Carbon β Unit :=
  translate (cannot "Cannot delete Queue : ".toList queueName) do
    invoke (beans.removeBinding queueName queueName)
    invoke (beans.deleteQueue queueName)

def purgeMessagesFromQueue (queueName : Str) : Carbon β Unit :=
  translate (cannot "Cannot purge Queue : ".toList queueName) do
    invoke (beans.deleteAllMessagesInQueue queueName)

section
variable {beans} {I : World β → Prop} {queueName : Str}

theorem keeps_queueExists (h : Keeps I (invoke (beans.isQueueExists queueName))) :
    Keeps I (queueExists beans queueName) :=
  keeps_translate (keeps_bind h fun _ => keeps_pure _)

theorem keeps_createQueue {userName : Str}
    (hqueue : Keeps I (invoke (beans.createNewQueue queueName userName true)))
    (hbinding : Keeps I (invoke (beans.createNewBinding queueName queueName))) :
    Keeps I (createQueue beans queueName userName) :=
  keeps_translate (keeps_bind hqueue fun _ => hbinding)

theorem keeps_deleteQueue (hbinding : Keeps I (invoke (beans.removeBinding queueName queueName)))
    (hqueue : Keeps I (invoke (beans.deleteQueue queueName))) :
    Keeps I (deleteQueue beans queueName) :=
  keeps_translate (keeps_bind hbinding fun _ => hqueue)

end

end CarbonMessaging.QueueManagementBeans
