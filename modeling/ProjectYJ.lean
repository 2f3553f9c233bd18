import ProjectYJ.Lib.Lts
import ProjectYJ.Lib.Bytes
import ProjectYJ.Lib.Framing
import ProjectYJ.Lib.MachineInt
import ProjectYJ.Lib.Memory
import ProjectYJ.Packet
import ProjectYJ.PacketBuffer
import ProjectYJ.ProcessPacket
import ProjectYJ.PacketHandler
import ProjectYJ.Theorems.Dispatch
import ProjectYJ.Theorems.RoundTrip
import ProjectYJ.Lemmas.Receive
import ProjectYJ.Theorems.QueuedBytes
import ProjectYJ.Theorems.Reassembly
import ProjectYJ.Lib.Line
import ProjectYJ.PacketPool
import ProjectYJ.SendPath
import ProjectYJ.Lemmas.SendPath
import ProjectYJ.Lemmas.SessionTables
import ProjectYJ.Theorems.SendFraming
import ProjectYJ.Theorems.SessionTables
import ProjectYJ.Lib.HandOver
import ProjectYJ.Router
import ProjectYJ.Theorems.Router
import ProjectYJ.GameSession
import ProjectYJ.Theorems.Recycling
import ProjectYJ.Chat
import ProjectYJ.Lemmas.Chat
import ProjectYJ.Theorems.ChatDelivery
import ProjectYJ.Theorems.ChatRequests
import ProjectYJ.ProtoParser
import ProjectYJ.Theorems.Framing
import ProjectYJ.Theorems.GeneratedSides
import ProjectYJ.Theorems.SendBuffers
import ProjectYJ.Theorems.PoolBalance
import ProjectYJ.Lib.Locks
import ProjectYJ.ServerLocks
import ProjectYJ.Theorems.Speaker
import ProjectYJ.Connections
import ProjectYJ.Theorems.LockDiscipline
import ProjectYJ.Lemmas.Connections
import ProjectYJ.Server
import ProjectYJ.Lemmas.Server
import ProjectYJ.Theorems.Teardown
import ProjectYJ.Theorems.SessionPool
import ProjectYJ.Theorems.Drain
import ProjectYJ.Theorems.MakePacket
import ProjectYJ.Theorems.ByteQueue
import ProjectYJ.Theorems.PoolCounters
import ProjectYJ.Theorems.BufferPosition
import ProjectYJ.Theorems.Overflow
import ProjectYJ.Theorems.LeaveRoom
import ProjectYJ.Theorems.RoomSelection
import ProjectYJ.Theorems.RoomNumbers
import ProjectYJ.Lib.Unicode
import ProjectYJ.RoomName
import ProjectYJ.Theorems.RoomNames
import ProjectYJ.Disconnect
import ProjectYJ.Lib.Roster
import ProjectYJ.Theorems.SessionCount
import ProjectYJ.ReadLoop
import ProjectYJ.Theorems.ReadBuffer
import ProjectYJ.Theorems.SliceBounds
import ProjectYJ.ReceiveIndices
import ProjectYJ.Theorems.ReceiveIndices
import ProjectYJ.Lib.Loans
import ProjectYJ.ObjectPool
import ProjectYJ.Theorems.ObjectPool
import ProjectYJ.Theorems.StaleMemory
import ProjectYJ.Theorems.SessionUIDs
import ProjectYJ.Lib.Ebnf
import ProjectYJ.Proto3
import ProjectYJ.Lemmas.ProtoParser
import ProjectYJ.Lemmas.Proto3
import ProjectYJ.Lib.Pairing
import ProjectYJ.Theorems.PacketNumbering
import ProjectYJ.ClientWindows
import ProjectYJ.ChatSystem
import ProjectYJ.ClientView
import ProjectYJ.Lemmas.ClientView
import ProjectYJ.Theorems.ClientMemory
import ProjectYJ.Theorems.ChatWindow
import ProjectYJ.Lemmas.ClientRequests
import ProjectYJ.Theorems.ClientRequests
import ProjectYJ.Theorems.ChatAgreement
import ProjectYJ.Theorems.LobbyWindow
import ProjectYJ.Lib.Threads
import ProjectYJ.Lib.WorkerPool
import ProjectYJ.Theorems.WorkerPools
import ProjectYJ.Lib.Deadlock
import ProjectYJ.Theorems.Deadlock
import ProjectYJ.Network
import ProjectYJ.Theorems.Network
import ProjectYJ.PacketMemory
import ProjectYJ.Theorems.PacketMemory
import ProjectYJ.StressTest
import ProjectYJ.Theorems.StressTest
import ProjectYJ.Ini
import ProjectYJ.IniFile
import ProjectYJ.Theorems.IniFile
import ProjectYJ.Theorems.IniSettings
