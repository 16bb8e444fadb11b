import NosKernel.Runs
import NosKernel.RefCounting
import NosKernel.ObjectTableMap
import NosKernel.ObjectTableInterleaving
import NosKernel.TaskRegistry
import NosKernel.TaskTableInterleaving
import NosKernel.TaskTableSerial
import NosKernel.CpuStackAllocation
import NosKernel.TaskPlacement
import NosKernel.CurrentTask
import NosKernel.TaskStart
import NosKernel.TaskLifecycle
import NosKernel.IpiBroadcast
